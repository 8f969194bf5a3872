import Kitchen.Number.Integer
import Kitchen.Text.Blank

namespace Kitchen.Number

def infinity : Float := Float.ofBits 0x7FF0000000000000

def notANumber : Float := Float.ofBits 0x7FF8000000000000

def ofDecimal (digits : Nat) (exponent : Int) : Float :=
  if digits = 0 then 0
  else
    let size := (Nat.toDigits 10 digits).length + exponent
    if size > 310 then infinity
    else if size < -330 then 0
    else Float.ofScientific digits (exponent < 0) exponent.natAbs

def takeDigits : List Char → List Nat × List Char
  | [] => ([], [])
  | [c] =>
    match Text.digit? c with
    | none => ([], [c])
    | some d => ([d], [])
  | c :: next :: rest =>
    match Text.digit? c with
    | none => ([], c :: next :: rest)
    | some d =>
      let (ds, left) :=
        if next = '_' ∧ rest.head?.any Text.isDigit then takeDigits rest
        else takeDigits (next :: rest)
      (d :: ds, left)

def takeFraction : List Char → List Nat × List Char
  | '.' :: more => takeDigits more
  | cs => ([], cs)

def readExponent? : List Char → Option Int
  | [] => some 0
  | c :: more =>
    if c = 'e' ∨ c = 'E' then
      let (negative, body) := splitSign more
      match takeDigits body with
      | (d :: ds, []) => some (signed negative (ofDigits (d :: ds)))
      | _ => none
    else none

def readDecimal? (cs : List Char) : Option Float :=
  let (whole, rest) := takeDigits cs
  let (fraction, rest) := takeFraction rest
  if whole.isEmpty && fraction.isEmpty then none
  else (readExponent? rest).map fun exponent =>
    ofDecimal (ofDigits (whole ++ fraction)) (exponent - fraction.length)

def readFloat? (cs : List Char) : Option Float := do
  let (negative, body) := splitSign (Text.strip cs)
  let word := String.ofList (body.map Char.toLower)
  let size ←
    if word == "inf" || word == "infinity" then some infinity
    else if word == "nan" then some notANumber
    else readDecimal? body
  return if negative then -size else size

end Kitchen.Number

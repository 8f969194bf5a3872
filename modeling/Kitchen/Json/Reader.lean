import Kitchen.Json.Fault
import Kitchen.Number.Reading
import Kitchen.Text.Hex
import Kitchen.Value.Equal

namespace Kitchen.Json

open Text (Glyph)

def isBlank (c : Char) : Bool :=
  c = ' ' || c = '\t' || c = '\n' || c = '\r'

def skipBlank (cs : List Char) : List Char :=
  cs.dropWhile isBlank

def simpleEscape? : Char → Option Char
  | '"' => some '"'
  | '\\' => some '\\'
  | '/' => some '/'
  | 'b' => some '\x08'
  | 'f' => some '\x0C'
  | 'n' => some '\n'
  | 'r' => some '\r'
  | 't' => some '\t'
  | _ => none

def isHigh (n : Nat) : Bool := 0xD800 ≤ n && n < 0xDC00

def isLow (n : Nat) : Bool := 0xDC00 ≤ n && n < 0xE000

def unit? (cs : List Char) : Option (Nat × List Char) :=
  if 4 < cs.length then (Text.hexNumber? (cs.take 4)).map (·, cs.drop 4) else none

def unitGlyph (cs : List Char) : Except Stop (Glyph × List Char) :=
  match unit? cs with
  | none => .error ⟨.badUnit, cs.length + 1⟩
  | some (n, rest) =>
    if isHigh n then
      match rest with
      | '\\' :: 'u' :: more =>
        if more.length ≤ 4 then .ok (.ofCode n, rest)
        else match unit? more with
          | none => .error ⟨.badUnit, more.length + 1⟩
          | some (m, rest') =>
            if isLow m then
              .ok (.ofCode (0x10000 + (n - 0xD800) * 0x400 + (m - 0xDC00)), rest')
            else .ok (.ofCode n, rest)
      | _ => .ok (.ofCode n, rest)
    else .ok (.ofCode n, rest)

def string (start : Nat) : Nat → List Char → Except Stop (List Glyph × List Char)
  | 0, _ => .error ⟨.unterminated, start⟩
  | _ + 1, [] => .error ⟨.unterminated, start⟩
  | fuel + 1, c :: rest =>
    if c = '"' then .ok ([], rest)
    else if c = '\\' then
      match rest with
      | [] => .error ⟨.unterminated, start⟩
      | e :: more => do
        let (g, left) ←
          if e = 'u' then unitGlyph more
          else match simpleEscape? e with
            | some d => .ok (.char d, more)
            | none => .error ⟨.badEscape, more.length + 2⟩
        let (gs, left) ← string start fuel left
        return (g :: gs, left)
    else if c.toNat < 0x20 then .error ⟨.control, rest.length + 1⟩
    else do
      let (gs, left) ← string start fuel rest
      return (.char c :: gs, left)

def isDigit (c : Char) : Bool := '0' ≤ c && c ≤ '9'

def natOf (ds : List Char) : Nat :=
  ds.foldl (fun n c => 10 * n + (c.toNat - 48)) 0

def fraction? : List Char → Option (List Char × List Char)
  | '.' :: c :: rest =>
    if isDigit c then some ((c :: rest).takeWhile isDigit, (c :: rest).dropWhile isDigit) else none
  | _ => none

def exponent? : List Char → Option (Int × List Char)
  | c :: rest =>
    if c = 'e' ∨ c = 'E' then
      let (negative, body) := Number.splitSign rest
      let ds := body.takeWhile isDigit
      if ds.isEmpty then none
      else some (Number.signed negative (natOf ds), body.dropWhile isDigit)
    else none
  | [] => none

def wholePart? : List Char → Option (List Char × List Char)
  | '0' :: rest => some (['0'], rest)
  | c :: rest =>
    if isDigit c then some ((c :: rest).takeWhile isDigit, (c :: rest).dropWhile isDigit) else none
  | [] => none

def number (cs : List Char) : Except Stop (Value × List Char) :=
  let (negative, body) :=
    match cs with
    | '-' :: rest => (true, rest)
    | _ => (false, cs)
  match wholePart? body with
  | none => .error ⟨.noValue, cs.length⟩
  | some (ds, rest) =>
    let (fs, rest') := (fraction? rest).getD ([], rest)
    let found := exponent? rest'
    if fs.isEmpty && found.isNone then
      if ds.length > Number.digitLimit then .error ⟨.tooLong ds.length, cs.length⟩
      else .ok (.int (Number.signed negative (natOf ds)), rest)
    else
      let (e, left) := found.getD (0, rest')
      let x := Number.ofDecimal (natOf (ds ++ fs)) (e - fs.length)
      .ok (.float (if negative then -x else x), left)

def words : List (List Char × Value) :=
  [("null".toList, .null), ("true".toList, .bool true), ("false".toList, .bool false),
   ("NaN".toList, .float Number.notANumber), ("Infinity".toList, .float Number.infinity),
   ("-Infinity".toList, .float (-Number.infinity))]

def word? (cs : List Char) : Option (Value × List Char) :=
  (words.find? fun w => w.1.isPrefixOf cs).map fun w => (w.2, cs.drop w.1.length)

mutual

def value : Nat → List Char → Except Stop (Value × List Char)
  | 0, cs => .error ⟨.noValue, cs.length⟩
  | _ + 1, [] => .error ⟨.noValue, 0⟩
  | fuel + 1, c :: rest =>
    if c = '"' then do
      let (s, left) ← string (rest.length + 1) (rest.length + 1) rest
      return (.ofGlyphs s, left)
    else if c = '[' then
      match skipBlank rest with
      | ']' :: left => .ok (.list [], left)
      | inner => do
        let (xs, left) ← items fuel inner
        return (.list xs, left)
    else if c = '{' then
      match skipBlank rest with
      | '}' :: left => .ok (.map [], left)
      | inner => do
        let (es, left) ← members fuel [] inner
        return (.map es, left)
    else match word? (c :: rest) with
      | some found => .ok found
      | none => number (c :: rest)

def items : Nat → List Char → Except Stop (List Value × List Char)
  | 0, cs => .error ⟨.noValue, cs.length⟩
  | fuel + 1, cs => do
    let (v, left) ← value fuel cs
    match skipBlank left with
    | ']' :: left => return ([v], left)
    | ',' :: left =>
      let (vs, left) ← items fuel (skipBlank left)
      return (v :: vs, left)
    | left => .error ⟨.noComma, left.length⟩

def members : Nat → List (Value × Value) → List Char → Except Stop (List (Value × Value) × List Char)
  | 0, _, cs => .error ⟨.noName, cs.length⟩
  | fuel + 1, done, cs =>
    match cs with
    | '"' :: rest => do
      let (k, left) ← string cs.length (rest.length + 1) rest
      match skipBlank left with
      | ':' :: left =>
        let (v, left) ← value fuel (skipBlank left)
        let done := Value.insert (.ofGlyphs k) v done
        match skipBlank left with
        | '}' :: left => return (done, left)
        | ',' :: left => members fuel done (skipBlank left)
        | left => .error ⟨.noComma, left.length⟩
      | left => .error ⟨.noColon, left.length⟩
    | _ => .error ⟨.noName, cs.length⟩

end

def readChars (cs : List Char) : Except Stop Value := do
  if cs.head? = some '\uFEFF' then throw ⟨.byteOrderMark, cs.length⟩
  let (v, left) ← value (2 * cs.length + 2) (skipBlank cs)
  match skipBlank left with
  | [] => return v
  | left => throw ⟨.extra, left.length⟩

def read (s : String) : Except Fault Value :=
  (readChars s.toList).mapError (·.at s.toList)

end Kitchen.Json

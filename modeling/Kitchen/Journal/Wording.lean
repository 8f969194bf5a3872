import Kitchen.Number.Rounded
import Kitchen.Value.Equal
import Kitchen.Value.Literal

namespace Kitchen.Journal.Wording

inductive Fault where
  | tooFewValues
  | tooManyValues
  | notMap
  | noKey (key : String)
  | openKey
  | cutShort
  | widthNotWhole
  | letter (c : Char) (place : Nat)
  | needsNumber (letter : Char) (kind : String)
  | needsWhole (letter : Char) (kind : String)
  | needsReal (kind : String)
  | needsChar
  | charRange
  | nanToWhole
  | infinityToWhole
  | wholeTooLarge
  | widthTooLarge
  | precisionTooLarge
  | givenTooLarge (range : String)
  deriving DecidableEq, Repr

inductive Category where
  | kind
  | value
  | key
  | size
  deriving DecidableEq, Repr

def Fault.category : Fault → Category
  | openKey | cutShort | letter .. | nanToWhole | widthTooLarge | precisionTooLarge => .value
  | noKey _ => .key
  | charRange | infinityToWhole | wholeTooLarge | givenTooLarge _ => .size
  | _ => .kind

def hexText (n : Nat) : String := String.ofList (Nat.toDigits 16 n)

def Fault.message : Fault → String
  | tooFewValues => "not enough arguments for format string"
  | tooManyValues => "not all arguments converted during string formatting"
  | notMap => "format requires a mapping"
  | noKey key => (Value.text key).literal
  | openKey => "incomplete format key"
  | cutShort => "incomplete format"
  | widthNotWhole => "* wants int"
  | letter c place =>
    let shown := if 31 ≤ c.toNat && c.toNat < 127 then c else '?'
    s!"unsupported format character '{shown}' (0x{hexText c.toNat}) at index {place}"
  | needsNumber l kind => s!"%{l} format: a real number is required, not {kind}"
  | needsWhole l kind => s!"%{l} format: an integer is required, not {kind}"
  | needsReal kind => s!"must be real number, not {kind}"
  | needsChar => "%c requires int or char"
  | charRange => "%c arg not in range(0x110000)"
  | nanToWhole => "cannot convert float NaN to integer"
  | infinityToWhole => "cannot convert float infinity to integer"
  | wholeTooLarge => "int too large to convert to float"
  | widthTooLarge => "width too big"
  | precisionTooLarge => "precision too big"
  | givenTooLarge range => s!"Python int too large to convert to C {range}"

inductive Supply where
  | row (values : List Value)
  -- Values by name, and the value that comes next: the whole map, or what the last key chose.
  | named (entries : List (Value × Value)) (upcoming : Option Value)

structure Spec where
  left : Bool
  plus : Bool
  blank : Bool
  alternate : Bool
  zero : Bool
  width : Nat
  precision : Option Nat

def next : Supply → Except Fault (Value × Supply)
  | .row (v :: rest) => .ok (v, .row rest)
  | .named es (some v) => .ok (v, .named es none)
  | _ => .error .tooFewValues

def key (depth : Nat) : List Char → Option (List Char × List Char)
  | [] => none
  | ')' :: rest =>
    if depth = 0 then some ([], rest) else (key (depth - 1) rest).map fun (k, r) => (')' :: k, r)
  | '(' :: rest => (key (depth + 1) rest).map fun (k, r) => ('(' :: k, r)
  | c :: rest => (key depth rest).map fun (k, r) => (c :: k, r)

def flags (s : Spec) : List Char → Spec × List Char
  | '-' :: rest => flags { s with left := true } rest
  | '+' :: rest => flags { s with plus := true } rest
  | ' ' :: rest => flags { s with blank := true } rest
  | '#' :: rest => flags { s with alternate := true } rest
  | '0' :: rest => flags { s with zero := true } rest
  | cs => (s, cs)

def isDigit (c : Char) : Bool := '0' ≤ c && c ≤ '9'

def natOf (ds : List Char) : Nat :=
  ds.foldl (fun n c => 10 * n + (c.toNat - 48)) 0

-- How large a width or a precision may be, and what is wrong with greater ones: written as digits, or given
-- among the values.
structure Bound where
  most : Nat
  asDigits : Fault
  asValue : Fault

def widthBound : Bound := ⟨0x7FFFFFFFFFFFFFFF, .widthTooLarge, .givenTooLarge "ssize_t"⟩

def precisionBound : Bound := ⟨0x7FFFFFFF, .precisionTooLarge, .givenTooLarge "int"⟩

def amount (b : Bound) (supply : Supply) : List Char → Except Fault (Int × Supply × List Char)
  | '*' :: rest => do
    let (v, supply) ← next supply
    match v.whole? with
    | some n =>
      if n < -(b.most : Int) - 1 ∨ (b.most : Int) < n then throw b.asValue
      else return (n, supply, rest)
    | none => throw .widthNotWhole
  | cs =>
    let n := natOf (cs.takeWhile isDigit)
    if b.most < n then .error b.asDigits else .ok (n, supply, cs.dropWhile isDigit)

def padNumber (s : Spec) (negative : Bool) (mark body : List Char) : List Char :=
  let sign := if negative then ['-'] else if s.plus then ['+'] else if s.blank then [' '] else []
  let size := sign.length + mark.length + body.length
  if s.left then sign ++ mark ++ body ++ List.replicate (s.width - size) ' '
  else if s.zero then sign ++ mark ++ List.replicate (s.width - size) '0' ++ body
  else List.replicate (s.width - size) ' ' ++ sign ++ mark ++ body

def padText (s : Spec) (body : List Char) : List Char :=
  let fill := List.replicate (s.width - body.length) ' '
  if s.left then body ++ fill else fill ++ body

def asciiOnly (s : List Char) : List Char :=
  s.flatMap fun c =>
    if c.toNat < 0x80 then [c]
    else if c.toNat < 0x100 then '\\' :: 'x' :: Text.hexPadded c.toNat 2
    else if c.toNat < 0x10000 then '\\' :: 'u' :: Text.hexPadded c.toNat 4
    else '\\' :: 'U' :: Text.hexPadded c.toNat 8

def wholeOf (letter : Char) (decimal : Bool) (v : Value) : Except Fault Int :=
  match v.whole?, v with
  | some n, _ => .ok n
  | none, .float x =>
    if !decimal then .error (.needsWhole letter v.kind)
    else match Number.truncate? x, Number.parts x with
      | some n, _ => .ok n
      | none, .nan => .error .nanToWhole
      | none, _ => .error .infinityToWhole
  | none, _ =>
    if decimal then .error (.needsNumber letter v.kind) else .error (.needsWhole letter v.kind)

def placeWhole (s : Spec) (letter : Char) (v : Value) : Except Fault (List Char) := do
  let decimal := letter = 'd' || letter = 'i' || letter = 'u'
  let n ← wholeOf letter decimal v
  let base := if decimal then 10 else if letter = 'o' then 8 else 16
  let ds := Nat.toDigits base n.natAbs
  let ds := Number.zeroPadded (s.precision.getD 0) ds
  let upper := letter = 'X'
  let ds := if upper then ds.map Char.toUpper else ds
  let mark := if s.alternate && !decimal then ['0', letter] else []
  return padNumber s (n < 0) mark ds

def floatOf (v : Value) : Except Fault Float :=
  match v.whole?, v with
  | some n, _ =>
    let x := Float.ofInt n
    if x.isFinite then .ok x else .error .wholeTooLarge
  | none, .float x => .ok x
  | none, v => .error (.needsReal v.kind)

def placeFloat (s : Spec) (letter : Char) (v : Value) : Except Fault (List Char) := do
  let x ← floatOf v
  let precision := s.precision.getD 6
  let form := letter.toLower
  let (negative, body) :=
    match Number.parts x with
    | .nan => (false, "nan".toList)
    | .infinite negative => (negative, "inf".toList)
    | .finite negative m q =>
      (negative,
        if form = 'f' then Number.fixedText m q precision s.alternate
        else if form = 'e' then Number.exponentForm m q precision s.alternate
        else Number.generalForm m q precision s.alternate)
  return padNumber s negative [] (if letter.isUpper then body.map Char.toUpper else body)

def placeChar (s : Spec) (v : Value) : Except Fault (List Char) :=
  match v.whole?, v with
  | some n, _ =>
    if 0 ≤ n ∧ n < 0x110000 then .ok (padText s [Char.ofNat n.toNat]) else .error .charRange
  | none, .text t => match t.toList with
    | [c] => .ok (padText s [c])
    | _ => .error .needsChar
  | none, _ => .error .needsChar

def write? (s : Spec) (letter : Char) (v : Value) : Option (Except Fault (List Char)) :=
  let cut (cs : List Char) : List Char := (s.precision.map cs.take).getD cs
  if letter = 's' then some (.ok (padText s (cut v.plain.toList)))
  else if letter = 'r' then some (.ok (padText s (cut v.literal.toList)))
  else if letter = 'a' then some (.ok (padText s (cut (asciiOnly v.literal.toList))))
  else if "diuoxX".toList.contains letter then some (placeWhole s letter v)
  else if "eEfFgG".toList.contains letter then some (placeFloat s letter v)
  else if letter = 'c' then some (placeChar s v)
  else none

def choose (supply : Supply) : List Char → Except Fault (Supply × List Char)
  | '(' :: rest =>
    match supply with
    | .row _ => .error .notMap
    | .named es _ =>
      match key 0 rest with
      | none => .error .openKey
      | some (k, rest) =>
        match Value.field? (String.ofList k) es with
        | none => .error (.noKey (String.ofList k))
        | some v => .ok (.named es (some v), rest)
  | cs => .ok (supply, cs)

def place (size : Nat) (supply : Supply) (cs : List Char) :
    Except Fault (List Char × Supply × List Char) := do
  let (supply, cs) ← choose supply cs
  let (spec, cs) := flags ⟨false, false, false, false, false, 0, none⟩ cs
  let (width, supply, cs) ← amount widthBound supply cs
  let spec := { spec with left := spec.left || width < 0, width := width.natAbs }
  let (spec, supply, cs) ← match cs with
    | '.' :: rest => do
      let (n, supply, cs) ← amount precisionBound supply rest
      pure ({ spec with precision := some n.toNat }, supply, cs)
    | _ => pure (spec, supply, cs)
  let cs := match cs with
    | c :: rest => if c = 'h' ∨ c = 'l' ∨ c = 'L' then rest else cs
    | [] => []
  match cs with
  | [] => throw .cutShort
  | letter :: rest =>
    let (v, supply) ← next supply
    match write? spec letter v with
    | some text => return (← text, supply, rest)
    | none => throw (.letter letter (size - rest.length - 1))

def fillFrom (size : Nat) : Nat → Supply → List Char → Except Fault (List Char)
  | 0, _, cs => .ok cs
  | _ + 1, supply, [] =>
    match supply with
    | .row (_ :: _) => .error .tooManyValues
    | _ => .ok []
  | fuel + 1, supply, '%' :: '%' :: rest => ('%' :: ·) <$> fillFrom size fuel supply rest
  | fuel + 1, supply, '%' :: rest => do
    let (text, supply, rest) ← place size supply rest
    return text ++ (← fillFrom size fuel supply rest)
  | fuel + 1, supply, c :: rest => (c :: ·) <$> fillFrom size fuel supply rest

-- A message with its values. Without values it stands as it is; a single map gives its entries by name.
def fill (message : String) (values : List Value) : Except Fault String :=
  let cs := message.toList
  match values with
  | [] => .ok message
  | [.map (e :: es)] =>
    let supply := Supply.named (e :: es) (some (.map (e :: es)))
    String.ofList <$> fillFrom cs.length (cs.length + 1) supply cs
  | vs => String.ofList <$> fillFrom cs.length (cs.length + 1) (.row vs) cs

end Kitchen.Journal.Wording

import Kitchen.Number.Reading
import Kitchen.Text.Case
import Kitchen.Value.Equal
import Kitchen.Yaml.Node

namespace Kitchen.Yaml

def radixNumber (radix : Nat) (cs : List Char) : Except Fault Int :=
  match cs.mapM fun c => (Text.hexValue? c).filter (· < radix) with
  | some (d :: ds) => .ok ((d :: ds).foldl (fun n d => radix * n + d) 0 : Nat)
  | _ => .error (.notInteger radix (String.ofList cs))

def decimalNumber (cs : List Char) : Except Fault Int :=
  match Number.readInteger (Text.strip cs) with
  | .ok n => .ok n
  | .error .malformed => .error (.notInteger 10 (String.ofList cs))
  | .error (.tooLong digits) => .error (.longInteger digits)

def size (cs : List Char) : Except Fault Int :=
  match cs with
  | [] => .error .emptyNumber
  | ['0'] => .ok 0
  | '0' :: 'b' :: rest => radixNumber 2 rest
  | '0' :: 'x' :: rest => radixNumber 16 rest
  | '0' :: _ => radixNumber 8 cs
  | _ => do
    let places ← (Tag.splitColon cs).mapM decimalNumber
    return places.foldl (fun n d => 60 * n + d) 0

def intOf (text : String) : Except Fault Int :=
  let cs := text.toList.filter (· ≠ '_')
  (size (Tag.unsigned cs)).map fun n => if cs.head? = some '-' then -n else n

def realNumber (cs : List Char) : Except Fault Float :=
  match Number.readFloat? cs with
  | some x => .ok x
  | none => .error (.notFloat (String.ofList cs))

def sixtieths (count : Nat) : List Float → Float → Float
  | [], sum => sum
  | x :: xs, sum => sixtieths (60 * count) xs (sum + x * Float.ofNat count)

def floatOf (text : String) : Except Fault Float := do
  let cs := Text.lower (text.toList.filter (· ≠ '_'))
  let body := Tag.unsigned cs
  let sign : Float := if cs.head? = some '-' then -1 else 1
  if body = [] then throw .emptyNumber
  if body = ".inf".toList then return sign * Number.infinity
  if body = ".nan".toList then return Number.notANumber
  match Tag.splitColon body with
  | [_] => return sign * (← realNumber body)
  | places => return sign * sixtieths 1 (← places.mapM realNumber).reverse 0

def boolWord? (word : List Char) : Option Bool :=
  if ["yes".toList, "true".toList, "on".toList].contains word then some true
  else if ["no".toList, "false".toList, "off".toList].contains word then some false
  else none

def boolOf (text : String) : Except Fault Bool :=
  let word := Text.lower text.toList
  match boolWord? word with
  | some b => .ok b
  | none => .error (.notBool (String.ofList word))

def natOf (cs : List Char) : Nat :=
  cs.foldl (fun n c => 10 * n + (c.toNat - 48)) 0

def dateOf (s : Tag.Stamp) : Except DateFault Date :=
  let d : Date := ⟨natOf s.year, natOf s.month, natOf s.day⟩
  if d.year = 0 then .error (.year 0)
  else if d.month < 1 || 12 < d.month then .error .month
  else if d.day < 1 || Date.daysIn d.year d.month < d.day then .error .day
  else .ok d

def offsetOf : Option (Option (Char × List Char × List Char)) → Except DateFault (Option Int)
  | none => .ok none
  | some none => .ok (some 0)
  | some (some (sign, hours, minutes)) =>
    let size : Int := natOf hours * 60 + natOf minutes
    let n := if sign = '-' then -size else size
    if 1440 ≤ size then .error (.offset n) else .ok (some (n * 60))

def microOf (fraction : List Char) : Nat :=
  natOf ((fraction ++ List.replicate 6 '0').take 6)

def stampValue (s : Tag.Stamp) : Except DateFault Value :=
  match s.time with
  | none => (dateOf s).map .date
  | some (hour, minute, second, fraction) => do
    let offset ← offsetOf s.zone
    let date ← dateOf s
    let m : Moment :=
      ⟨date, natOf hour, natOf minute, natOf second, microOf fraction, offset⟩
    if 23 < m.hour then throw .hour
    if 59 < m.minute then throw .minute
    if 59 < m.second then throw .second
    return .moment m

def timestampOf (text : String) : Except Fault Value :=
  match Tag.stamp? text.toList with
  | none => .error .notMoment
  | some s => (stampValue s).mapError .date

def sextet? (c : Char) : Option Nat :=
  let n := c.toNat
  if 'A' ≤ c && c ≤ 'Z' then some (n - 65)
  else if 'a' ≤ c && c ≤ 'z' then some (n - 71)
  else if '0' ≤ c && c ≤ '9' then some (n + 4)
  else if c = '+' then some 62
  else if c = '/' then some 63
  else none

-- The bytes of a text in base 64, read from a place within a group of four signs; other signs are passed over.
-- Nothing if a group is not complete.
def bytesFrom (place pads left : Nat) : List Char → Option (List UInt8)
  | [] => if place = 0 then some [] else none
  | c :: rest =>
    if c = '=' then
      if 2 ≤ place ∧ 4 ≤ place + pads + 1 then some []
      else bytesFrom place (if 2 ≤ place then pads + 1 else pads) left rest
    else match sextet? c with
      | none => bytesFrom place pads left rest
      | some n =>
        match place with
        | 0 => bytesFrom 1 0 n rest
        | 1 => (.ofNat (left * 4 + n / 16) :: ·) <$> bytesFrom 2 0 (n % 16) rest
        | 2 => (.ofNat (left * 16 + n / 4) :: ·) <$> bytesFrom 3 0 (n % 4) rest
        | _ => (.ofNat (left * 64 + n) :: ·) <$> bytesFrom 0 0 0 rest

def binaryOf (text : String) : Except Fault Value :=
  let cs := text.toList
  if cs.any fun c => 0x80 ≤ c.toNat then blunder .binary
  else match bytesFrom 0 0 0 cs with
    | some bs => .ok (.bytes bs)
    | none => blunder .binary

def scalarValue (tag : Tag) (text : String) : Except Fault Value :=
  match tag with
  | .null => .ok .null
  | .bool => (boolOf text).map .bool
  | .int => (intOf text).map .int
  | .float => (floatOf text).map .float
  | .binary => binaryOf text
  | .timestamp => timestampOf text
  | .str => .ok (.text text)
  | .seq | .map | .omap | .pairs | .set => blunder .kindOfNode
  | .merge => blunder (.unknownTag (Tag.space ++ "merge"))
  | .value => blunder (.unknownTag (Tag.space ++ "value"))
  | .other name => blunder (.unknownTag name)

def tornValue (tag : Tag) (t : Text.Torn) : Except Fault Value :=
  if tag = .str then .ok (.torn t) else scalarValue tag (Value.torn t).plain

def mapOf (entries : List (Value × Value)) : List (Value × Value) :=
  entries.foldl (fun es e => Value.insert e.1 e.2 es) []

namespace Node

def keyTag : Tag → Tag
  | .value => .str
  | tag => tag

def text? : Node → Option String
  | .scalar _ text => some text
  | .torn _ t => some (Value.torn t).plain
  | .list _ _ => none
  | .map _ entries => entryText? entries
where
  entryText? : List (Node × Node) → Option String
  | [] => none
  | (.scalar .value _, v) :: _ => text? v
  | _ :: rest => entryText? rest

mutual

def value : Node → Except Fault Value
  | .scalar tag text => scalarValue tag text
  | .torn tag t => tornValue tag t
  | .list tag items =>
    match tag with
    | .seq => return .list (← values items)
    | .omap | .pairs => return .list (← pairs items)
    | .other name => blunder (.unknownTag name)
    | _ => blunder .kindOfNode
  | .map tag entries =>
    match tag with
    | .map => return .map (mapOf (← entryValues entries))
    | .set => return .set ((mapOf (← entryValues entries)).map (·.1))
    | .seq | .omap | .pairs => blunder .kindOfNode
    | .other name => blunder (.unknownTag name)
    | tag =>
      match text?.entryText? entries with
      | some text => scalarValue tag text
      | none => blunder .kindOfNode

def values : List Node → Except Fault (List Value)
  | [] => .ok []
  | n :: ns => do return (← value n) :: (← values ns)

def pairs : List Node → Except Fault (List Value)
  | [] => .ok []
  | .map _ [(k, v)] :: ns => do return .tuple [← value k, ← value v] :: (← pairs ns)
  | _ :: _ => blunder .kindOfNode

def entryValues (entries : List (Node × Node)) : Except Fault (List (Value × Value)) := do
  let merged ← mergedValues entries
  let own ← ownValues entries
  return merged ++ own

def ownValues : List (Node × Node) → Except Fault (List (Value × Value))
  | [] => .ok []
  | (k, v) :: rest => do
    let key ← match k with
      | .scalar tag text => if tag = .merge then return ← ownValues rest else scalarValue (keyTag tag) text
      | k => value k
    if !key.isHashable then blunder .unhashableKey
    let content ← value v
    return (key, content) :: (← ownValues rest)

def mergedValues : List (Node × Node) → Except Fault (List (Value × Value))
  | [] => .ok []
  | (.scalar .merge _, .map _ entries) :: rest => do
    return (← entryValues entries) ++ (← mergedValues rest)
  | (.scalar .merge _, .list _ items) :: rest => do
    return (← itemEntries items) ++ (← mergedValues rest)
  | (.scalar .merge _, _) :: _ => blunder .notMergeable
  | _ :: rest => mergedValues rest

def itemEntries : List Node → Except Fault (List (Value × Value))
  | [] => .ok []
  | .map _ entries :: rest => do
    let own ← entryValues entries
    return (← itemEntries rest) ++ own
  | _ :: _ => blunder .notMergeable

end

end Node

def read (cs : List Char) : Except Fault Value := do
  match ← Node.ofText? cs with
  | some n => n.value
  | none => return .null

end Kitchen.Yaml

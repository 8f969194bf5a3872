import Kitchen.Json.Reader
import Kitchen.Misuse
import Kitchen.Text.Utf8
import Kitchen.Value.Literal

namespace Kitchen

open Text (Glyph)

inductive Kind where
  | string
  | byteArray
  | number
  | json
  deriving DecidableEq, Repr

namespace Kind

def tag : Kind → String
  | string => "string"
  | byteArray => "byteArray"
  | number => "number"
  | json => "JSON"

def all : List Kind := [string, byteArray, number, json]

def ofTag? (tag : String) : Option Kind :=
  all.find? (·.tag == tag)

end Kind

structure Dish where
  value : Value
  tag : String
  deriving Inhabited, Repr

namespace Dish

inductive Unreadable where
  | notNumber (text : String)
  | notJson (f : Json.Fault)
  deriving DecidableEq, Repr

inductive Fault where
  | unknownType (tag : String)
  | unconvertible (source target : String) (why : Unreadable)
  | misuse (m : Misuse)
  deriving DecidableEq, Repr

def Unreadable.message : Unreadable → String
  | notNumber text => s!"could not convert string to float: {(Value.text text).literal}"
  | notJson f => f.message

def Fault.message : Fault → String
  | unknownType tag =>
    let known := Value.list (Kind.all.map fun k => .text k.tag)
    s!"Unknown dish type: {(Value.text tag).literal}. Valid types: {known.literal}"
  | unconvertible source target why => s!"Cannot convert {source} to {target}: {why.message}"
  | misuse m => m.message

def kindOf (tag : String) : Except Fault Kind :=
  match Kind.ofTag? tag with
  | some k => .ok k
  | none => .error (.unknownType tag)

def byte (v : Value) : Except Misuse UInt8 :=
  match v.whole? with
  | none => .error (.notWhole v.kind)
  | some n => if 0 ≤ n ∧ n < 256 then .ok (.ofNat n.toNat) else .error .byteRange

def countLimit : Int := 0x8000000000000000

def bytesOf : Value → Except Misuse (List UInt8)
  | .bytes bs => .ok bs
  | .list xs | .tuple xs | .set xs => xs.mapM byte
  | .map es => es.mapM fun e => byte e.1
  | .text _ | .torn _ => .error .unencoded
  | v =>
    match v.whole? with
    | none => .error (.notBytes v.kind)
    | some n =>
      if n < -countLimit ∨ countLimit ≤ n then .error .countTooLarge
      else if n < 0 then .error .negativeCount
      else .ok (List.replicate n.toNat 0)

def set (v : Value) (tag : String) : Except Fault Dish := do
  let kind ← kindOf tag
  match kind, v with
  | .byteArray, .list xs => return ⟨.bytes (← (xs.mapM byte).mapError .misuse), tag⟩
  | _, _ => return ⟨v, tag⟩

def make (v : Value) (tag : String) : Except Fault Dish :=
  match v with
  | .null => .ok ⟨.null, tag⟩
  | v => set v tag

def emptyOf (tag : String) : Value :=
  match Kind.ofTag? tag with
  | some .string => .text ""
  | some .byteArray => .bytes []
  | some .number => .int 0
  | _ => .null

def valueOrEmpty (d : Dish) : Value :=
  match d.value with
  | .null => emptyOf d.tag
  | v => v

def numberText : Value → List Glyph
  | .float x =>
    match Number.whole? x with
    | some n => Glyph.ofText (toString n)
    | none => Glyph.ofText (Number.floatText x)
  | v => v.glyphs

def encoded (gs : List Glyph) : Except Misuse (List UInt8) :=
  if gs.any Glyph.isHalf then
    let place := (gs.takeWhile fun g => !g.isHalf).length
    let run := (gs.drop place).takeWhile Glyph.isHalf
    .error (.unencodable place (run.filterMap Glyph.half?))
  else .ok (Text.Utf8.encode (gs.filterMap Glyph.char?))

def toBytes (v : Value) (kind : Kind) : Except Misuse (List UInt8) :=
  match kind with
  | .byteArray => bytesOf v
  | .string => encoded v.glyphs
  | .number => encoded (numberText v)
  | .json => (Json.chars Json.spaced v).mapError .unwritable |>.map Text.Utf8.encode

def readNumber (cs : List Char) : Except Unreadable Value :=
  if cs.isEmpty then .ok (.int 0)
  else match Number.readInteger cs with
    | .ok n => .ok (.int n)
    | .error _ =>
      match Number.readFloat? cs with
      | some x => .ok (.float x)
      | none => .error (.notNumber (String.ofList cs))

def ofBytes (bs : List UInt8) (kind : Kind) : Except Unreadable Value :=
  let cs := Text.Utf8.decode bs
  match kind with
  | .byteArray => .ok (.bytes bs)
  | .string => .ok (.text (String.ofList cs))
  | .number => readNumber (Text.strip cs)
  | .json =>
    if cs.isEmpty then .ok .null
    else (Json.readChars cs).mapError fun s => .notJson (s.at cs)

def translate (d : Dish) (target : Kind) : Except Fault Dish :=
  match d.value with
  | .null => .ok ⟨.null, target.tag⟩
  | v => do
    let source ← kindOf d.tag
    let bs ← (toBytes v source).mapError .misuse
    let v ← (ofBytes bs target).mapError (.unconvertible d.tag target.tag)
    return ⟨v, target.tag⟩

def turn (d : Dish) (tag : String) : Except Fault Dish := do
  let target ← kindOf tag
  if d.tag = tag then return d else d.translate target

def get (d : Dish) (tag : String) : Except Fault (Value × Dish) := do
  let d ← d.turn tag
  return (d.valueOrEmpty, d)

def clone (d : Dish) : Except Fault Dish :=
  if d.tag = Kind.json.tag then do
    let cs ← (Json.chars Json.spaced d.value).mapError fun u => .misuse (.unwritable u)
    let v ← (Json.readChars cs).mapError fun s => .unconvertible d.tag d.tag (.notJson (s.at cs))
    make v d.tag
  else make d.value d.tag

def literal (d : Dish) : String :=
  s!"Dish(type={d.tag}, value={d.value.literal})"

end Dish

end Kitchen

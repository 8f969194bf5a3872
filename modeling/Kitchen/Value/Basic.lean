import Kitchen.Number.Binary
import Kitchen.Text.Glyph
import Kitchen.Value.Moment

namespace Kitchen

open Text (Glyph)

inductive Value where
  | null
  | bool (b : Bool)
  | int (n : Int)
  | float (x : Float)
  | text (s : String)
  | bytes (bs : List UInt8)
  | list (items : List Value)
  | map (entries : List (Value × Value))
  | tuple (items : List Value)
  | set (items : List Value)
  | date (d : Date)
  | moment (m : Moment)
  | torn (t : Text.Torn)
  deriving Inhabited, Repr

namespace Value

def kind : Value → String
  | null => "NoneType"
  | bool _ => "bool"
  | int _ => "int"
  | float _ => "float"
  | text _ => "str"
  | bytes _ => "bytes"
  | list _ => "list"
  | map _ => "dict"
  | tuple _ => "tuple"
  | set _ => "set"
  | date _ => "datetime.date"
  | moment _ => "datetime.datetime"
  | torn _ => "str"

def truthy : Value → Bool
  | null => false
  | bool b => b
  | int n => n != 0
  | float x => x != 0
  | text s => !s.isEmpty
  | bytes bs => !bs.isEmpty
  | list xs => !xs.isEmpty
  | map es => !es.isEmpty
  | tuple xs => !xs.isEmpty
  | set xs => !xs.isEmpty
  | date _ => true
  | moment _ => true
  | torn _ => true

def isText : Value → Bool
  | text _ | torn _ => true
  | _ => false

def isHashable : Value → Bool
  | list _ | map _ | set _ => false
  | _ => true

def ofGlyphs (gs : List Glyph) : Value :=
  if h : gs.any Glyph.isHalf then torn ⟨gs, h⟩ else text (String.ofList (gs.filterMap Glyph.char?))

def glyphs? : Value → Option (List Glyph)
  | text s => some (Glyph.ofText s)
  | torn t => some t.glyphs
  | _ => none

def whole? : Value → Option Int
  | bool b => some (if b then 1 else 0)
  | int n => some n
  | _ => none

end Value

end Kitchen

import Kitchen.Pattern.Escape
import Kitchen.Pattern.Match
import Kitchen.Pattern.Reader
import Kitchen.Transform.Basic

namespace Kitchen

open Text (Glyph)

namespace Pattern

def ofValue (mode : Mode) (v : Value) : Except Failure Pattern :=
  match v.glyphs? with
  | some gs => (read mode gs).mapError .pattern
  | none => .error (.misuse (if v.isHashable then .notPattern else .unhashable v.kind))

def Mode.ofFlags (ignoreCase multiline : Bool) : Mode :=
  ⟨ignoreCase, multiline, false, false, false⟩

def subject (v : Value) : Except Failure (List Glyph) :=
  match v.glyphs?, v with
  | some gs, _ => .ok gs
  | none, .bytes _ => .error (.misuse .bytesSearched)
  | none, v => .error (.misuse (.notSearchable v.kind))

end Pattern

namespace Transform

structure Needle where
  literal : Bool
  value : Value

def Needle.ofValue : Value → Needle
  | .map es =>
    ⟨!((Value.field? "option" es).getD (.text "Regex")).same (.text "Regex"),
      (Value.field? "string" es).getD (.text "")⟩
  | v => ⟨false, v.shown⟩

def Needle.pattern (n : Needle) (mode : Pattern.Mode) : Except Failure Pattern :=
  match n.literal, n.value.glyphs? with
  | true, some gs => (Pattern.read mode (Pattern.escape gs)).mapError .pattern
  | true, none => misuse (.notDecodable n.value.kind)
  | false, _ => Pattern.ofValue mode n.value

def refuseMalformed : Failure → Failure
  | .pattern f =>
    if f.isMalformed then .refused (Glyph.ofText "Invalid regular expression: " ++ f.message)
    else .pattern f
  | f => f

def fill (replacement : Value) (pieces : List Pattern.Piece) : Except Failure (List Glyph) :=
  match replacement.glyphs?, replacement with
  | some gs, _ => .ok (joined gs)
  | none, .null => .ok (joined [])
  | none, v =>
    match pieces.findIdx? (· = .found) with
    | some place => misuse (.piece place v.kind)
    | none => .ok (joined [])
where
  joined (gs : List Glyph) : List Glyph :=
    pieces.flatMap fun | .kept s => s | .found => gs

def replaceIn (needle : Needle) (replacement : Value) (everywhere : Bool) (mode : Pattern.Mode)
    (input : Value) : Except Failure Value := do
  if !needle.value.truthy then return input
  let p ← (needle.pattern mode).mapError refuseMalformed
  let s ← Pattern.subject input
  let limit := if everywhere then none else some 1
  return .ofGlyphs (← fill replacement (p.pieces limit s))

def findReplace : Transform where
  title := "FindReplace"
  name := "Find / Replace"
  input := "string"
  output := "string"
  defaults :=
    [.map [(.text "option", .text "Regex"), (.text "string", .text "")], .text "",
     .bool true, .bool false, .bool true]
  run v args :=
    match args with
    | find :: replacement :: everywhere :: ignoreCase :: multiline :: _ =>
      replaceIn (.ofValue find) replacement everywhere.truthy
        (.ofFlags ignoreCase.truthy multiline.truthy) v
    | short => misuse (.tooFew 5 short.length)

end Transform

end Kitchen

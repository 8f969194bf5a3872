import Kitchen.Text.Case
import Kitchen.Transform.Basic

namespace Kitchen.Transform

open Text (Glyph splitOn)

def recase (word : String) (chars : List Char → List Char) (char : Char → Char) :
    Value → Except Failure Value
  | .text s => .ok (.text (String.ofList (chars s.toList)))
  | .torn t => .ok (.ofGlyphs (Glyph.mapStretches chars [] t.glyphs))
  | .bytes bs => .ok (.bytes (bs.map fun b => .ofNat (char (Char.ofNat b.toNat)).toNat))
  | v => misuse (.lacks v.kind word)

def toUpperCase : Transform where
  title := "ToUpperCase"
  name := "To Upper case"
  input := "string"
  output := "string"
  defaults := []
  run v _ := recase "upper" Text.upper Char.toUpper v

def toLowerCase : Transform where
  title := "ToLowerCase"
  name := "To Lower case"
  input := "string"
  output := "string"
  defaults := []
  run v _ := recase "lower" Text.lower Char.toLower v

def reverseLines : Value → Except Failure Value
  | .text s =>
    .ok (.text (String.ofList (['\n'].intercalate (splitOn '\n' s.toList).reverse)))
  | .torn t =>
    .ok (.ofGlyphs ([.char '\n'].intercalate (splitOn (.char '\n') t.glyphs).reverse))
  | .bytes _ => misuse (.needsBytes "str")
  | v => misuse (.lacks v.kind "split")

def reverseItems : Value → Except Failure Value
  | .text s => .ok (.text (String.ofList s.toList.reverse))
  | .torn t => .ok (.ofGlyphs t.glyphs.reverse)
  | .bytes bs => .ok (.bytes bs.reverse)
  | .list xs => .ok (.list xs.reverse)
  | .tuple xs => .ok (.tuple xs.reverse)
  | .map _ => misuse (.unhashable "slice")
  | v => misuse (.notSliceable v.kind)

def reverse : Transform where
  title := "Reverse"
  name := "Reverse"
  input := "string"
  output := "string"
  defaults := [.text "Character"]
  run v args :=
    let unit := args.head?.getD (.text "Character")
    if unit.same (.text "Line") then reverseLines v
    else if unit.same (.text "Character") then reverseItems v
    else .error (.refused (Glyph.ofText
      s!"Reverse: unknown mode {unit.literal}, expected 'Character' or 'Line'"))

end Kitchen.Transform

import Kitchen.Text.Glyph

namespace Kitchen.Pattern

open Text (Glyph)

def signs : List Char := "()[]\x7b\x7d?*+-|^$\\.&~# \t\n\r\x0b\x0c".toList

def escapeGlyph (g : Glyph) : List Glyph :=
  if g.meets signs.contains then [.char '\\', g] else [g]

def escape (gs : List Glyph) : List Glyph :=
  gs.flatMap escapeGlyph

end Kitchen.Pattern

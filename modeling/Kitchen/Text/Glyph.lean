import Kitchen.Text.Blank
import Kitchen.Text.Digit
import Kitchen.Text.Quoted

namespace Kitchen.Text

-- A character beyond the first plane is made up of two halves, but texts can also hold one alone, or two that
-- were never put together.
structure Half where
  code : Nat
  bounds : 0xD800 ≤ code ∧ code < 0xE000
  deriving DecidableEq, Repr

inductive Glyph where
  | char (c : Char)
  | half (h : Half)
  deriving DecidableEq, Repr

namespace Glyph

def ofChars (cs : List Char) : List Glyph :=
  cs.map char

def ofText (s : String) : List Glyph :=
  ofChars s.toList

def isHalf : Glyph → Bool
  | char _ => false
  | half _ => true

def char? : Glyph → Option Char
  | char c => some c
  | half _ => none

def chars? (gs : List Glyph) : Option (List Char) :=
  gs.mapM char?

def half? : Glyph → Option Half
  | char _ => none
  | half h => some h

def ofCode (n : Nat) : Glyph :=
  if h : 0xD800 ≤ n ∧ n < 0xE000 then half ⟨n, h⟩ else char (Char.ofNat n)

def code : Glyph → Nat
  | char c => c.toNat
  | half h => h.code

def shown : Glyph → Char
  | char c => c
  | half _ => '\uFFFD'

def plain (gs : List Glyph) : String :=
  String.ofList (gs.map shown)

def meets (p : Char → Bool) : Glyph → Bool
  | char c => p c
  | half _ => false

def mapChar (f : Char → Char) : Glyph → Glyph
  | char c => char (f c)
  | half h => half h

def isBlank : Glyph → Bool :=
  meets Text.isBlank

def digit? : Glyph → Option Nat
  | char c => Text.digit? c
  | half _ => none

def before : List Glyph → List Glyph → Bool
  | _, [] => false
  | [], _ :: _ => true
  | g :: gs, h :: hs => g.code < h.code || (g.code == h.code && before gs hs)

def mapStretches (f : List Char → List Char) (stretch : List Char) : List Glyph → List Glyph
  | [] => ofChars (f stretch.reverse)
  | char c :: gs => mapStretches f (c :: stretch) gs
  | half h :: gs => ofChars (f stretch.reverse) ++ half h :: mapStretches f [] gs

def escaped (quote : Char) : Glyph → List Char
  | char c => Text.escaped quote c
  | half h => '\\' :: 'u' :: hexPadded h.code 4

def quoted (gs : List Glyph) : List Char :=
  let q := quoteFor (gs.contains (char '\'')) (gs.contains (char '"'))
  q :: gs.flatMap (escaped q) ++ [q]

end Glyph

structure Torn where
  glyphs : List Glyph
  torn : glyphs.any Glyph.isHalf
  deriving DecidableEq, Repr

end Kitchen.Text

import Kitchen.Pattern.Fold
import Kitchen.Text.Word

namespace Kitchen.Pattern

open Text (Glyph)

inductive Category where
  | digit
  | space
  | word
  deriving DecidableEq, Repr

def isAsciiWord (n : Nat) : Bool :=
  (48 ≤ n && n ≤ 57) || (65 ≤ n && n ≤ 90) || n == 95 || (97 ≤ n && n ≤ 122)

def Category.holds (k : Category) (ascii : Bool) (n : Nat) : Bool :=
  let g := Glyph.ofCode n
  match k, ascii with
  | digit, false => g.meets Text.isDigit
  | space, false => g.isBlank
  | word, false => g.meets Text.isWord
  | digit, true => 48 ≤ n && n ≤ 57
  | space, true => n == 32 || (9 ≤ n && n ≤ 13)
  | word, true => isAsciiWord n

inductive Item where
  | one (c : Nat)
  | range (low high : Nat)
  | category (k : Category) (negated ascii : Bool)
  deriving DecidableEq, Repr

def Item.holds (f : Fold) (l : Nat) : Item → Bool
  | one c => if 0x10000 ≤ c then l == c else f.matchesOne l c
  | range low high => f.between l low high
  | category k negated ascii => k.holds ascii l != negated

inductive Test where
  | any
  | anyButNewline
  | literal (c : Nat) (negated : Bool) (fold : Fold)
  | set (items : List Item) (negated : Bool) (fold : Fold)
  deriving DecidableEq, Repr

def Test.accepts (t : Test) (g : Glyph) : Bool :=
  match t with
  | any => true
  | anyButNewline => g != .char '\n'
  | literal c negated fold => fold.matchesOne (fold.lower g) c != negated
  | set items negated fold => items.any (·.holds fold (fold.lower g)) != negated

inductive Anchor where
  | textStart
  | lineStart
  | textEndOrNewline
  | lineEnd
  | textEnd
  | boundary (ascii negated : Bool)
  deriving DecidableEq, Repr

inductive Greed where
  | greedy
  | lazy
  | possessive
  deriving DecidableEq, Repr

inductive Node where
  | empty
  | one (t : Test)
  | anchor (a : Anchor)
  | cat (a b : Node)
  | alt (a b : Node)
  | capture (n : Nat) (body : Node)
  | same (n : Nat) (fold : Fold) (low high : Nat)
  | repeated (greed : Greed) (low : Nat) (high : Option Nat) (body : Node)
  | atomic (body : Node)
  | ahead (negated : Bool) (body : Node)
  | behind (negated : Bool) (width : Nat) (body : Node)
  | choose (n : Nat) (yes no : Node)
  deriving DecidableEq, Repr, Inhabited

def widthLimit : Nat := 0x10000000000000000

def Node.width : Node → Nat × Nat
  | empty | anchor _ | ahead .. | behind .. => (0, 0)
  | one _ => (1, 1)
  | cat a b => (min (a.width.1 + b.width.1) widthLimit, min (a.width.2 + b.width.2) widthLimit)
  | alt a b => (min a.width.1 b.width.1, max a.width.2 b.width.2)
  | capture _ body | atomic body => body.width
  | same _ _ low high => (low, high)
  | repeated _ low high body =>
    let most := match high with
      | some n => body.width.2 * n
      | none => if body.width.2 = 0 then 0 else widthLimit
    (min (body.width.1 * low) widthLimit, min most widthLimit)
  | choose _ yes no => (min yes.width.1 no.width.1, max yes.width.2 no.width.2)

end Kitchen.Pattern

namespace Kitchen

structure Pattern where
  root : Pattern.Node
  groups : Nat
  deriving DecidableEq, Repr, Inhabited

end Kitchen

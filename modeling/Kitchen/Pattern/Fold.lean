import Kitchen.Text.Case
import Kitchen.Text.Glyph

namespace Kitchen.Pattern

open Text (Glyph)

inductive Fold where
  | exact
  | ascii
  | full
  deriving DecidableEq, Repr

def kinTable : List (Nat × List Nat) :=
  [(0x69, [0x131]), (0x73, [0x17f]), (0xb5, [0x3bc]), (0x131, [0x69]), (0x17f, [0x73]),
   (0x345, [0x3b9, 0x1fbe]), (0x390, [0x1fd3]), (0x3b0, [0x1fe3]), (0x3b2, [0x3d0]),
   (0x3b5, [0x3f5]), (0x3b8, [0x3d1]), (0x3b9, [0x345, 0x1fbe]), (0x3ba, [0x3f0]),
   (0x3bc, [0xb5]), (0x3c0, [0x3d6]), (0x3c1, [0x3f1]), (0x3c2, [0x3c3]), (0x3c3, [0x3c2]),
   (0x3c6, [0x3d5]), (0x3d0, [0x3b2]), (0x3d1, [0x3b8]), (0x3d5, [0x3c6]), (0x3d6, [0x3c0]),
   (0x3f0, [0x3ba]), (0x3f1, [0x3c1]), (0x3f5, [0x3b5]), (0x432, [0x1c80]), (0x434, [0x1c81]),
   (0x43e, [0x1c82]), (0x441, [0x1c83]), (0x442, [0x1c84, 0x1c85]), (0x44a, [0x1c86]),
   (0x463, [0x1c87]), (0x1c80, [0x432]), (0x1c81, [0x434]), (0x1c82, [0x43e]), (0x1c83, [0x441]),
   (0x1c84, [0x442, 0x1c85]), (0x1c85, [0x442, 0x1c84]), (0x1c86, [0x44a]), (0x1c87, [0x463]),
   (0x1c88, [0xa64b]), (0x1e61, [0x1e9b]), (0x1e9b, [0x1e61]), (0x1fbe, [0x345, 0x3b9]),
   (0x1fd3, [0x390]), (0x1fe3, [0x3b0]), (0xa64b, [0x1c88]), (0xfb05, [0xfb06]),
   (0xfb06, [0xfb05])]

def kin (l : Nat) : List Nat :=
  (kinTable.lookup l).getD []

namespace Fold

def lower (f : Fold) (g : Glyph) : Nat :=
  match f with
  | exact => g.code
  | ascii => (g.mapChar Char.toLower).code
  | full => (g.mapChar Text.lowerChar).code

def sources (l : Nat) : List Nat :=
  let self := if full.lower (.ofCode l) = l then [l] else []
  let dotted := if l = 0x69 then [0x130] else []
  self ++ dotted ++ Text.lowerShifts.filterMap fun s =>
    let c := ((l : Int) - s.shift).toNat
    if s.holds c ∧ (c : Int) + s.shift = l then some c else none

def between (f : Fold) (l low high : Nat) : Bool :=
  match f with
  | exact => low ≤ l && l ≤ high
  | ascii => (low ≤ l && l ≤ high) || (97 ≤ l && l ≤ 122 && low ≤ l - 32 && l - 32 ≤ high)
  | full => (l :: kin l).any fun m => (sources m).any fun c => low ≤ c && c ≤ high

def matchesOne (f : Fold) (l c : Nat) : Bool :=
  match f with
  | exact => l == c
  | ascii => l == (if 65 ≤ c ∧ c ≤ 90 then c + 32 else c)
  | full =>
    let m := full.lower (.ofCode c)
    if c < 0x110000 ∧ m < 0x110000 then l == m || (kin m).contains l else l == c

end Fold

end Kitchen.Pattern

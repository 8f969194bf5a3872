import Kitchen.Dish.Basic
import Kitchen.Pattern.Fault

namespace Kitchen

open Text (Glyph)

inductive Failure where
  | refused (message : List Glyph)
  | dish (f : Dish.Fault)
  | pattern (f : Pattern.Fault)
  | misuse (m : Misuse)
  | raised (label : String) (message : List Glyph)
  deriving DecidableEq, Repr

namespace Failure

def ofDish : Dish.Fault → Failure
  | .misuse m => .misuse m
  | f => .dish f

def message : Failure → List Glyph
  | refused text => text
  | dish f => Glyph.ofText f.message
  | pattern f => f.message
  | misuse m => Glyph.ofText m.message
  | raised _ text => text

def isExpected : Failure → Bool
  | refused _ | dish _ => true
  | _ => false

end Failure

end Kitchen

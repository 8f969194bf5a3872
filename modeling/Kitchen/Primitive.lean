import Kitchen.Value.Basic

namespace Kitchen

inductive Primitive where
  | fork
  | merge
  | register
  | jump
  | conditionalJump
  | label
  | finish
  | comment
  deriving DecidableEq, Repr

namespace Primitive

def all : List Primitive :=
  [fork, merge, register, jump, conditionalJump, label, finish, comment]

def name : Primitive → String
  | fork => "Fork"
  | merge => "Merge"
  | register => "Register"
  | jump => "Jump"
  | conditionalJump => "Conditional Jump"
  | label => "Label"
  | finish => "Return"
  | comment => "Comment"

def ofName? (name : String) : Option Primitive :=
  all.find? (·.name == name)

def defaults : Primitive → List Value
  | fork => [.text "\n", .text "\n", .bool false]
  | merge => []
  | register => [.text "([\\s\\S]*)", .bool true, .bool false]
  | jump => [.text "", .int 10]
  | conditionalJump => [.text "", .bool false, .text "", .int 10]
  | label => [.text ""]
  | finish => []
  | comment => [.text ""]

theorem ofName?_name (p : Primitive) : ofName? p.name = some p := by
  cases p <;> decide

end Primitive

end Kitchen

import Kitchen.Run.Ledger

namespace Kitchen.Run

structure Frame where
  -- The place of the primitive that was carried out last. Places before the start count from the end.
  cursor : Int
  jumps : Nat
  addressable : Nat
  offset : Int
  deriving DecidableEq, Repr, Inhabited

def Frame.start : Frame := ⟨0, 0, 0, 0⟩

def Frame.inner (f : Frame) : Frame :=
  ⟨0, 0, f.addressable, f.offset + f.cursor + 1⟩

structure Machine where
  ops : List Operation
  dish : Dish
  frame : Frame
  ledger : Ledger
  last : Option Nat

inductive Stop where
  | at (place : Int)
  | broken (b : Breakdown)
  | overLimit (limit : Int)
  | outOfRange
  | unfinished
  deriving DecidableEq, Repr

def overLimitMessage (limit : Int) : String :=
  s!"Step limit of {limit} operations exceeded"

inductive Halt where
  | failed (f : Failure)
  | broken (b : Breakdown)
  | overLimit (limit : Int)
  | unfinished
  deriving DecidableEq, Repr

def place? (size : Nat) (i : Int) : Option Nat :=
  let n := if i < 0 then i + size else i
  if 0 ≤ n ∧ n < size then some n.toNat else none

def follows (size : Nat) (i : Int) : Nat :=
  if i + 1 < 0 then (i + 1 + size).toNat else (i + 1).toNat

namespace Machine

def note (m : Machine) (e : Event) : Machine :=
  { m with ledger := m.ledger.note e }

def opAt? (m : Machine) (i : Int) : Option Operation :=
  (place? m.ops.length i).bind (m.ops[·]?)

def current? (m : Machine) : Option Operation :=
  m.opAt? m.frame.cursor

def rest (m : Machine) : List Operation :=
  m.ops.drop (follows m.ops.length m.frame.cursor)

def moveTo (m : Machine) (i : Int) : Machine :=
  { m with frame := { m.frame with cursor := i } }

end Machine

end Kitchen.Run

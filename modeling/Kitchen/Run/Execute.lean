import Kitchen.Run.Control

namespace Kitchen.Run

def budgetBound (v : Value) : Option Nat :=
  match v.whole?, v with
  | some n, _ => some n.toNat
  | none, .float x => (Number.truncate? x).map fun n => n.toNat + 1
  | none, _ => some 0

def Operation.budget? (op : Operation) : Option Value :=
  match op.primitive? with
  | some .jump => op.args[1]?
  | some .conditionalJump => op.args[3]?
  | _ => none

def jumpBound (ops : List Operation) : Option Nat :=
  ops.foldl (fun most op =>
    match Operation.budget? op with
    | none => most
    | some v => do return max (← most) (← budgetBound v)) (some 0)

def unboundedRounds : Nat := 0x10000000000

def rounds (ops : List Operation) (limit : Option Int) : Nat :=
  let span := 2 * ops.length + 2
  match jumpBound ops, limit with
  | some j, _ => (j + 1) * span
  | none, some l => (l.toNat + 2) * span
  | none, none => max unboundedRounds span

inductive Turn where
  | ended (stop : Stop) (m : Machine)
  | onward (i : Int) (m : Machine)

namespace Machine

def dispatch (run : Machine → Stop × Machine) (i : Int) (op : Operation) (m : Machine) :
    Except Halt Int × Machine :=
  match m.dish.get op.input with
  | .error e => (.error (.failed (.ofDish e)), m)
  | .ok (v, dish) =>
    let m := { m with dish }
    if op.primitive?.isSome then
      match (m.moveTo i).steer run with
      | (none, m) => (.ok m.frame.cursor, m)
      | (some halt, m) => (.error halt, m)
    else match op.produce v with
      | .error f => (.error (.failed f), m)
      | .ok dish => (.ok i, { m with dish })

def conclude (m : Machine) (i : Int) (op : Operation) (halt : Halt) : Turn :=
  match halt with
  | .failed f =>
    if f.isExpected then .ended (.at i) { m with dish := ⟨.ofGlyphs f.message, Kind.string.tag⟩ }
    else .ended (.broken ⟨op.name, i, f⟩) m
  | .broken b => .ended (.broken { b with place := i }) m
  | .overLimit l => .ended (.overLimit l) m
  | .unfinished => .ended .unfinished m

def enter (m : Machine) (i : Int) (op : Operation) : Machine :=
  { m with ledger := m.ledger.count.note (.dispatched i op) }

-- One round of an execution that began at `start`: it passes over the operation at a place, carries it out, or
-- ends there.
def round (run : Machine → Stop × Machine) (start i : Int) (m : Machine) : Turn :=
  if (m.ops.length : Int) ≤ i then .ended (.at m.ops.length) (m.note .completed)
  else match m.opAt? i with
    | none => .ended .outOfRange m
    | some op =>
      if op.disabled then .onward (i + 1) (m.note (.skipped i op))
      else if op.pauses ∧ i ≠ start then .ended (.at i) (m.note (.paused i))
      else
        match m.ledger.count.exceeded? with
        | some l => .ended (.overLimit l) { m with ledger := m.ledger.count }
        | none =>
          match (m.enter i op).dispatch run i op with
          | (.ok next, m') => .onward (next + 1) { m' with last := place? m.ops.length i }
          | (.error halt, m') => m'.conclude i op halt

def drive (run : Machine → Stop × Machine) (start : Int) : Nat → Int → Machine → Stop × Machine
  | 0, _, m => (.unfinished, m)
  | fuel + 1, i, m =>
    match m.round run start i with
    | .ended stop m => (stop, m)
    | .onward i m => drive run start fuel i m

def execute : Nat → Int → Machine → Stop × Machine
  | 0, _, m => (.unfinished, m)
  | depth + 1, start, m =>
    (m.note (.started m.ops.length start)).drive (execute depth 0) start
      (rounds m.ops m.ledger.limit) start

-- Executes the operations from a place on. The operations that a Fork runs are fewer than those it is one of,
-- but for a place counted from the end.
def run (start : Int) (m : Machine) : Stop × Machine :=
  m.execute (m.ops.length + 2) start

def fresh (ops : List Operation) (dish : Dish) (limit : Option Int) : Machine :=
  ⟨ops, dish, .start, .opened limit, none⟩

end Machine

end Kitchen.Run

import Kitchen.Operation

namespace Kitchen.Run

open Text (Glyph)

-- A failure that ends a run: the operation that failed, its place in the recipe that reports it, and why it
-- failed.
structure Breakdown where
  operation : String
  place : Int
  cause : Failure
  deriving DecidableEq, Repr

def Breakdown.message (b : Breakdown) : List Glyph :=
  Glyph.ofText s!"{b.operation} - " ++ b.cause.message

-- Texts that a Register captured: the place of the Register in the outermost recipe, how many texts could be
-- referred to before, and the texts.
structure Publication where
  place : Int
  base : Nat
  texts : List (List Glyph)
  deriving DecidableEq, Repr

inductive Event where
  | started (size : Nat) (start : Int)
  | skipped (place : Int) (op : Operation)
  | paused (place : Int)
  | dispatched (place : Int) (op : Operation)
  | tranche (number total : Nat)
  | ignored (number : Nat) (b : Breakdown)
  | published (p : Publication)
  | stayed
  | jumped (label : Value) (place jumps : Nat)
  | completed

structure Ledger where
  registers : List (List Glyph)
  steps : Nat
  limit : Option Int
  events : Array Event

namespace Ledger

def opened (limit : Option Int) : Ledger :=
  ⟨[], 0, limit, #[]⟩

def note (l : Ledger) (e : Event) : Ledger :=
  { l with events := l.events.push e }

def count (l : Ledger) : Ledger :=
  { l with steps := l.steps + 1 }

def exceeded? (l : Ledger) : Option Int :=
  l.limit.filter fun m => m < l.steps

def publish (l : Ledger) (p : Publication) : Ledger :=
  let l := l.note (.published p)
  { l with registers := l.registers ++ p.texts }

def publications (l : Ledger) : List Publication :=
  l.events.toList.filterMap fun
    | .published p => some p
    | _ => none

end Ledger

end Kitchen.Run

import Kitchen.Journal.Record
import Kitchen.Run.Execute

namespace Kitchen

open Text (Glyph)

structure Oven where
  ops : List Operation
  limit : Option Int
  queue : List Run.Publication

structure Bake where
  output : Value
  outputType : String
  progress : Int
  error : Option (List Glyph)
  registers : List (List Glyph)
  deriving Repr

namespace Oven

def preheat (ops : List Operation) (limit : Option Int) : Oven :=
  ⟨ops, limit, []⟩

def verdict (stop : Run.Stop) (m : Run.Machine) : Int × Option (List Glyph) :=
  match stop with
  | .at i => (i, none)
  | .broken b => (b.place, some b.message)
  | .overLimit l => (m.frame.cursor, some (Glyph.ofText (Run.overLimitMessage l)))
  | .outOfRange => (m.frame.cursor, some (Glyph.ofText (Misuse.message .outOfRange)))
  | .unfinished => (m.frame.cursor, none)

def outputOf (d : Dish) : Except Dish.Fault Value := do
  let (v, _) ← (← d.clone).get Kind.string.tag
  return v

def bake (o : Oven) (v : Value) (tag : String) : Except Failure Bake × Oven :=
  match Dish.make v tag with
  | .error e => (.error (.ofDish e), o)
  | .ok dish =>
    let (stop, m) := (Run.Machine.fresh o.ops dish o.limit).run 0
    let o := { o with queue := o.queue ++ m.ledger.publications }
    let (progress, error) := verdict stop m
    match outputOf m.dish with
    | .error e => (.error (.ofDish e), o)
    | .ok output => (.ok ⟨output, m.dish.tag, progress, error, m.ledger.registers⟩, o)

def collect (o : Oven) : List Run.Publication × Oven :=
  (o.queue, { o with queue := [] })

end Oven

namespace Bake

def succeeded (b : Bake) : Bool := b.error.isNone

end Bake

end Kitchen

import Kitchen.Primitive
import Kitchen.Transform.Basic

namespace Kitchen

structure Operation where
  name : String
  args : List Value
  input : String
  output : String
  disabled : Bool
  pauses : Bool
  transform : Option Transform

namespace Operation

def primitive? (op : Operation) : Option Primitive :=
  Primitive.ofName? op.name

def does (op : Operation) (p : Primitive) : Bool :=
  op.primitive? == some p && !op.disabled

def apply (op : Operation) (v : Value) : Except Failure Value :=
  if op.primitive?.isSome then .error (.misuse (.noTransform op.name))
  else match op.transform with
    | none => .error (.misuse (.noHandler op.name))
    | some t => t.run v op.args

def produce (op : Operation) (v : Value) : Except Failure Dish := do
  let out ← op.apply v
  (Dish.set out op.output).mapError .ofDish

def literal (op : Operation) : String :=
  let flags := (if op.disabled then " disabled" else "") ++ (if op.pauses then " breakpoint" else "")
  s!"Operation({(Value.text op.name).literal}, {(Value.list op.args).literal}{flags})"

end Operation

def labelPosition? (name : Value) (ops : List Operation) : Option Nat :=
  ops.findIdx? fun op => op.does .label && op.args.head?.any (·.same name)

end Kitchen

import Kitchen.Catalog
import Kitchen.Definition
import Kitchen.Operation

namespace Kitchen.Assembly

def settle (name : String) (place : Nat) (default arg : Value) :
    Except Definition.Fault Value :=
  match default, arg with
  | .int _, .text s =>
    match Number.readInteger (Text.strip s.toList) with
    | .ok n => .ok (.int n)
    | .error _ => .error (.notWhole name place arg)
  | .int _, .torn _ => .error (.notWhole name place arg)
  | _, _ => .ok arg

def settleAll (name : String) (place : Nat) :
    List Value → List Value → Except Definition.Fault (List Value)
  | [], args => .ok args
  | defaults, [] => .ok defaults
  | d :: ds, a :: args => do
    return (← settle name place d a) :: (← settleAll name (place + 1) ds args)

def operation (c : Catalog) (e : Entry) : Except Definition.Fault Operation :=
  match e.name with
  | .text name =>
    match Primitive.ofName? name with
    | some p => do
      return ⟨name, ← settleAll name 0 p.defaults e.args, "string", "string", e.disabled, e.pauses, none⟩
    | none =>
      match c.find? name with
      | none => .error (.unknownOperation e.name)
      | some t => do
        return ⟨name, ← settleAll name 0 t.defaults e.args, t.input, t.output, e.disabled, e.pauses,
          some t⟩
  | name => .error (.unknownOperation name)

def operations (c : Catalog) (es : List Entry) : Except Definition.Fault (List Operation) :=
  es.mapM (operation c)

def ofConfig (c : Catalog) (config : Value) : Except Definition.Fault (List Operation) := do
  operations c (← Definition.ofConfig (.text "inline") config).entries

end Kitchen.Assembly

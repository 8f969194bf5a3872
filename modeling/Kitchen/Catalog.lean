import Kitchen.Primitive
import Kitchen.Transform.Hex
import Kitchen.Transform.Replace
import Kitchen.Transform.Text

namespace Kitchen

structure Catalog where
  transforms : List Transform

namespace Catalog

inductive Fault where
  | unnamed (shown : String)
  | reserved (name : String)
  | unknown (name : String) (known : List String)
  deriving DecidableEq, Repr

def Fault.message : Fault → String
  | unnamed shown => s!"Handler {shown} has no name"
  | reserved name => s!"'{name}' is a flow-control operation and cannot be registered"
  | unknown name known =>
    let list := Value.list (known.map .text)
    s!"No operation registered with name: {name}. Registered: {list.literal}"

def empty : Catalog := ⟨[]⟩

def names (c : Catalog) : List String :=
  (c.transforms.map (·.name)).mergeSort fun a b => !(b < a)

def find? (c : Catalog) (name : String) : Option Transform :=
  c.transforms.find? (·.name == name)

def has (c : Catalog) (name : String) : Bool :=
  (c.find? name).isSome

def get (c : Catalog) (name : String) : Except Fault Transform :=
  match c.find? name with
  | some t => .ok t
  | none => .error (.unknown name c.names)

def register (c : Catalog) (t : Transform) : Except Fault Catalog :=
  if t.name.isEmpty then .error (.unnamed t.literal)
  else if (Primitive.ofName? t.name).isSome then .error (.reserved t.name)
  else .ok ⟨t :: c.transforms.filter (·.name != t.name)⟩

def standard : Catalog :=
  ⟨[Transform.toUpperCase, Transform.toLowerCase, Transform.reverse, Transform.findReplace,
    Transform.toHex, Transform.fromHex]⟩

end Catalog

end Kitchen

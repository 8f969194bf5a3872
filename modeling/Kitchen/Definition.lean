import Kitchen.Dish.Basic

namespace Kitchen

structure Entry where
  name : Value
  args : List Value
  disabled : Bool
  pauses : Bool
  deriving Repr, Inhabited

structure Definition where
  id : Value
  version : Value
  description : Value
  input : Kind
  entries : List Entry
  extras : List (Value × Value)
  deriving Repr

namespace Definition

inductive Fault where
  | notMap
  | noId
  | entriesNotList (id : Value)
  | badEntry (entry : Value)
  | argsNotList (name : Value)
  | badName (name : Value)
  | badInput (id input : Value)
  | configNotList
  | unknownOperation (name : Value)
  | notWhole (name : String) (place : Nat) (given : Value)
  deriving Repr

def Fault.message : Fault → String
  | notMap => "Recipe definition must be a mapping"
  | noId => "Recipe definition is missing 'recipe_id'"
  | entriesNotList id => s!"Recipe '{id.plain}': operations must be a list"
  | badEntry e => s!"Operation entry must be a mapping with an 'op' key: {e.literal}"
  | argsNotList name => s!"Operation '{name.plain}': args must be a list"
  | badName name => s!"Operation name must be a non-empty string, got {name.literal}"
  | badInput id input => s!"Recipe '{id.plain}': unknown input_type {input.literal}"
  | configNotList => "Recipe config must be a list of operations"
  | unknownOperation name => s!"Unknown operation: '{name.plain}'"
  | notWhole name place given =>
    s!"Operation '{name}': argument {place} must be an integer, got {given.literal}"

end Definition

open Value (field?)

namespace Entry

def flag (name : String) (fields : List (Value × Value)) : Bool :=
  ((field? name fields).getD (.bool false)).truthy

def ofValue (v : Value) : Except Definition.Fault Entry :=
  match v with
  | .map fields =>
    match field? "op" fields with
    | none => .error (.badEntry v)
    | some name =>
      match (field? "args" fields).getD (.list []) with
      | .list args | .tuple args =>
        if name.isText && name.truthy then
          .ok ⟨name, args, flag "disabled" fields, flag "breakpoint" fields⟩
        else .error (.badName name)
      | _ => .error (.argsNotList name)
  | _ => .error (.badEntry v)

def toValue (e : Entry) : Value :=
  .map ([(.text "op", e.name), (.text "args", .list e.args)]
    ++ (if e.disabled then [(.text "disabled", .bool true)] else [])
    ++ (if e.pauses then [(.text "breakpoint", .bool true)] else []))

end Entry

namespace Definition

def knownKeys : List String :=
  ["recipe_id", "version", "description", "input_type", "operations"]

def isExtra (entry : Value × Value) : Bool :=
  !knownKeys.any fun k => (Value.text k).same entry.1

def entriesOf (id : Value) (v : Value) : Except Fault (List Entry) :=
  if !v.truthy then .ok []
  else match v with
    | .list xs => xs.mapM Entry.ofValue
    | _ => .error (.entriesNotList id)

def inputOf (id v : Value) : Except Fault Kind :=
  match v with
  | .text tag =>
    match Kind.ofTag? tag with
    | some k => .ok k
    | none => .error (.badInput id v)
  | _ => .error (.badInput id v)

def ofValue (v : Value) : Except Fault Definition :=
  match v with
  | .map fields =>
    match field? "recipe_id" fields with
    | none => .error .noId
    | some id => do
      let entries ← entriesOf id ((field? "operations" fields).getD .null)
      let input ← inputOf id ((field? "input_type" fields).getD (.text Kind.string.tag))
      return {
        id, entries, input
        version := ((field? "version" fields).getD (.text "1.0")).shown
        description := (field? "description" fields).getD (.text "")
        extras := fields.filter isExtra }
  | _ => .error .notMap

def ofConfig (id : Value) (config : Value) : Except Fault Definition :=
  match config with
  | .list xs => do
    return ⟨id, .text "1.0", .text "", .string, ← xs.mapM Entry.ofValue, []⟩
  | _ => .error .configNotList

def toConfig (d : Definition) : Value :=
  .list (d.entries.map Entry.toValue)

def fields (d : Definition) : List (Value × Value) :=
  [(.text "recipe_id", d.id), (.text "version", d.version)]
    ++ (if d.description.truthy then [(.text "description", d.description)] else [])
    ++ [(.text "input_type", .text d.input.tag), (.text "operations", d.toConfig)]
    ++ d.extras

def toValue (d : Definition) : Value :=
  .map d.fields

def same (a b : Definition) : Bool :=
  a.id.same b.id && a.version.same b.version && a.description.same b.description
    && a.input == b.input && a.toConfig.same b.toConfig
    && (Value.map a.extras).same (.map b.extras)

end Definition

end Kitchen

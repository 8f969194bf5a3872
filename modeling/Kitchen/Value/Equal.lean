import Kitchen.Value.Basic

namespace Kitchen.Value

mutual

def same : Value → Value → Bool
  | null, null => true
  | bool a, bool b => a == b
  | bool a, int b => (if a then 1 else 0) == b
  | int a, bool b => a == (if b then 1 else 0)
  | int a, int b => a == b
  | bool a, float y => Number.compareInt (if a then 1 else 0) y == some .eq
  | float x, bool b => Number.compareInt (if b then 1 else 0) x == some .eq
  | int a, float y => Number.compareInt a y == some .eq
  | float x, int b => Number.compareInt b x == some .eq
  | float x, float y => x == y
  | text a, text b => a == b
  | bytes a, bytes b => a == b
  | list xs, list ys => sameAll xs ys
  | tuple xs, tuple ys => sameAll xs ys
  | set xs, set ys => xs.length == ys.length && allIn xs ys
  | map es, map fs => es.length == fs.length && entriesIn es fs
  | date a, date b => a == b
  | moment a, moment b => a == b
  | torn a, torn b => a == b
  | _, _ => false

def sameAll : List Value → List Value → Bool
  | [], [] => true
  | x :: xs, y :: ys => same x y && sameAll xs ys
  | _, _ => false

def allIn : List Value → List Value → Bool
  | [], _ => true
  | x :: xs, ys => ys.any (same x) && allIn xs ys

def entriesIn : List (Value × Value) → List (Value × Value) → Bool
  | [], _ => true
  | (k, v) :: es, fs => fs.any (fun f => same k f.1 && same v f.2) && entriesIn es fs

end

def lookup? (key : Value) (entries : List (Value × Value)) : Option Value :=
  (entries.find? fun e => same key e.1).map (·.2)

def field? (name : String) (entries : List (Value × Value)) : Option Value :=
  lookup? (text name) entries

def insert (key value : Value) : List (Value × Value) → List (Value × Value)
  | [] => [(key, value)]
  | (k, v) :: rest => if same key k then (k, value) :: rest else (k, v) :: insert key value rest

end Kitchen.Value

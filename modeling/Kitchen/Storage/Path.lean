import Kitchen.Text.Blank

namespace Kitchen.Storage

structure Path where
  lead : Nat
  parts : List String
  deriving DecidableEq, Repr, Inhabited

namespace Path

def here : Path := ⟨0, []⟩

def partsOf (cs : List Char) : List String :=
  ((Text.splitOn '/' cs).map String.ofList).filter fun part => part != "" && part != "."

def leadOf (cs : List Char) : Nat :=
  match (cs.takeWhile (· = '/')).length with
  | 2 => 2
  | n => min n 1

def ofText (s : String) : Path :=
  ⟨leadOf s.toList, partsOf s.toList⟩

def text (p : Path) : String :=
  if p.lead = 0 ∧ p.parts = [] then "."
  else String.ofList (List.replicate p.lead '/') ++ "/".intercalate p.parts

def isAbsolute (p : Path) : Bool := p.lead != 0

def hasNull (p : Path) : Bool :=
  p.parts.any fun part => part.toList.contains '\x00'

def under (folder p : Path) : Path :=
  if p.isAbsolute then p else ⟨folder.lead, folder.parts ++ p.parts⟩

def child (folder : Path) (name : String) : Path :=
  ⟨folder.lead, folder.parts ++ [name]⟩

def parent (p : Path) : Path :=
  ⟨p.lead, p.parts.dropLast⟩

def name (p : Path) : String :=
  p.parts.getLastD ""

def splitSuffix (name : List Char) : List Char × List Char :=
  let tail := (name.reverse.takeWhile (· ≠ '.')).reverse
  let stem := name.take (name.length - tail.length - 1)
  if tail = [] ∨ stem = [] then (name, []) else (stem, '.' :: tail)

def stem (p : Path) : String :=
  String.ofList (splitSuffix p.name.toList).1

def suffix (p : Path) : String :=
  String.ofList (splitSuffix p.name.toList).2

def expand? (p home : Path) (homes : List (String × Path)) : Option Path :=
  match p.lead, p.parts with
  | 0, first :: rest =>
    if !first.startsWith "~" then some p
    else
      let found := if first = "~" then some home else homes.lookup (String.ofList (first.toList.drop 1))
      found.map fun home => ⟨home.lead, home.parts ++ rest⟩
  | _, _ => some p

def up (p : Path) : Path :=
  if p.isAbsolute then p.parent
  else match p.parts.getLast? with
    | none | some ".." => p.child ".."
    | some _ => p.parent

def step (p : Path) (part : String) : Path :=
  if part = ".." then p.up else p.child part

def before (p q : Path) : Bool :=
  p.parts < q.parts

end Path

end Kitchen.Storage

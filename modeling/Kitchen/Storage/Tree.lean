import Kitchen.Storage.Path
import Kitchen.Text.Quoted

namespace Kitchen.Storage

inductive Item where
  | folder
  | file (content : List UInt8)
  deriving DecidableEq, Repr

-- What is stored, each thing once, under the path from the working folder or from the root. The working folder,
-- the folders above it and the root are there without being listed.
structure Tree where
  items : List (Path × Item)
  deriving Repr, Inhabited

inductive Trouble where
  | missing (p : Path)
  | taken (p : Path)
  | notFolder (p : Path)
  | folder (p : Path)
  deriving DecidableEq, Repr

namespace Trouble

def path : Trouble → Path
  | missing p | taken p | notFolder p | folder p => p

def number : Trouble → Nat
  | missing _ => 2
  | taken _ => 17
  | notFolder _ => 20
  | folder _ => 21

def reason : Trouble → String
  | missing _ => "No such file or directory"
  | taken _ => "File exists"
  | notFolder _ => "Not a directory"
  | folder _ => "Is a directory"

def message (e : Trouble) : String :=
  s!"[Errno {e.number}] {e.reason}: {String.ofList (Text.quoted e.path.text.toList)}"

end Trouble

inductive Site where
  | found (place : Path) (item : Item)
  | free (place : Path)
  | missing
  | blocked
  deriving Repr

namespace Tree

def empty : Tree := ⟨[]⟩

def at? (t : Tree) (place : Path) : Option Item :=
  if place.parts.all (· == "..") then some .folder
  else (t.items.find? fun e => e.1 == place).map (·.2)

def walk (t : Tree) (place : Path) : List String → Site
  | [] => .found place .folder
  | part :: rest =>
    let next := place.step part
    match t.at? next with
    | some .folder => t.walk next rest
    | some (.file content) => if rest.isEmpty then .found next (.file content) else .blocked
    | none => if rest.isEmpty then .free next else .missing

def site (t : Tree) (p : Path) : Site :=
  t.walk ⟨min p.lead 1, []⟩ p.parts

def find? (t : Tree) (p : Path) : Option Item :=
  match t.site p with
  | .found _ item => some item
  | _ => none

def has (t : Tree) (p : Path) : Bool :=
  (t.find? p).isSome

def isFolder (t : Tree) (p : Path) : Bool :=
  t.find? p == some .folder

def put (t : Tree) (place : Path) (item : Item) : Tree :=
  ⟨t.items.filter (fun e => e.1 != place) ++ [(place, item)]⟩

def read (t : Tree) (p : Path) : Except Trouble (List UInt8) :=
  match t.site p with
  | .found _ (.file content) => .ok content
  | .found _ .folder => .error (.folder p)
  | .free _ | .missing => .error (.missing p)
  | .blocked => .error (.notFolder p)

def revise (t : Tree) (p : Path) (f : List UInt8 → List UInt8) : Except Trouble Tree :=
  match t.site p with
  | .found place (.file content) => .ok (t.put place (.file (f content)))
  | .free place => .ok (t.put place (.file (f [])))
  | .found _ .folder => .error (.folder p)
  | .missing => .error (.missing p)
  | .blocked => .error (.notFolder p)

def write (t : Tree) (p : Path) (content : List UInt8) : Except Trouble Tree :=
  t.revise p fun _ => content

def append (t : Tree) (p : Path) (content : List UInt8) : Except Trouble Tree :=
  t.revise p (· ++ content)

def makeFolder (t : Tree) (p : Path) : Except Trouble Tree :=
  match t.site p with
  | .free place => .ok (t.put place .folder)
  | .found _ _ => .error (.taken p)
  | .missing => .error (.missing p)
  | .blocked => .error (.notFolder p)

def ensureFolder (t : Tree) (p : Path) : Except Trouble Tree :=
  match t.makeFolder p with
  | .error e => if t.isFolder p then .ok t else .error e
  | made => made

def ensureFolders (t : Tree) (p : Path) : Except Trouble Tree :=
  go p.parts.length p t
where
  go : Nat → Path → Tree → Except Trouble Tree
  | 0, p, t => t.ensureFolder p
  | fuel + 1, p, t =>
    match t.site p with
    | .missing => do (← go fuel p.parent t).ensureFolder p
    | _ => t.ensureFolder p

def erase (t : Tree) (p : Path) : Tree :=
  match t.site p with
  | .found place _ =>
    ⟨t.items.filter fun e => !(e.1.lead == place.lead && place.parts.isPrefixOf e.1.parts)⟩
  | _ => t

def below (t : Tree) (place : Path) : List (List String × Item) :=
  t.items.filterMap fun (q, item) =>
    if q.lead = place.lead ∧ place.parts.isPrefixOf q.parts then
      match q.parts.drop place.parts.length with
      | [] => none
      | parts => if parts.head? = some ".." then none else some (parts, item)
    else none

def foldersBelow (t : Tree) (p : Path) : List Path :=
  match t.site p with
  | .found place .folder =>
    (t.below place).filterMap fun
      | (parts, .folder) => some ⟨p.lead, p.parts ++ parts⟩
      | _ => none
  | _ => []

def names (t : Tree) (p : Path) : List String :=
  match t.site p with
  | .found place .folder =>
    (t.below place).filterMap fun
      | ([name], _) => some name
      | _ => none
  | _ => []

end Tree

end Kitchen.Storage

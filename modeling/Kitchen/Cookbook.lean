import Kitchen.Definition
import Kitchen.Json.Reader
import Kitchen.Storage.Reading
import Kitchen.Storage.Wildcard
import Kitchen.Text.Case
import Kitchen.Yaml.Meaning

namespace Kitchen

open Storage (Path Tree)

structure Cookbook where
  folder : Path
  known : List (String × Definition)
  deriving Repr

namespace Cookbook

inductive Unread where
  | file (u : Storage.Unreadable)
  | yaml (f : Yaml.Fault)
  | json (f : Json.Fault)
  | format (suffix : String)

def Unread.message : Unread → String
  | file (.trouble t) => t.message
  | file (.undecodable u) => u.message
  | yaml f => f.message
  | json f => f.message
  | format suffix => s!"Unsupported file format: {suffix}"

inductive Fault where
  | notFound (id : String)
  | unread (p : Path) (u : Unread)
  | invalid (p : Path) (f : Definition.Fault)
  | otherId (id : String) (found : Value)
  | otherVersion (id requested : String) (found : Value)
  | badPattern

namespace Fault

def isAbsence : Fault → Bool
  | notFound _ | otherVersion .. => true
  | _ => false

def message : Fault → String
  | notFound id => s!"Recipe definition not found: {id}"
  | unread p u => s!"Failed to load {p.text}: {u.message}"
  | invalid p f => s!"Invalid RecipeDef in {p.text}: {f.message}"
  | otherId id found =>
    s!"Recipe ID mismatch: file is '{id}' but recipe_id is '{found.plain}'"
  | otherVersion id requested found =>
    s!"Version mismatch for {id}: requested '{requested}', found '{found.plain}'"
  | badPattern => "Invalid pattern: '**' can only be an entire path component"

end Fault

def opened (folder : Path) : Cookbook := ⟨folder, []⟩

def suffixes : List String := [".yaml", ".yml", ".json"]

def first : List Path → Option Path
  | [] => none
  | p :: ps => some (ps.foldl (fun least q => if q.before least then q else least) p)

-- The file for an id with a suffix: right in the folder, else the first below it. An id may hold wildcards.
def findWith (b : Cookbook) (t : Tree) (id suffix : String) : Except Fault (Option Path) :=
  let name := id ++ suffix
  let direct := b.folder.under (Path.ofText name)
  if t.has direct then .ok (some direct)
  else match t.search? b.folder name with
    | none => .error .badPattern
    | some found => .ok (first found)

def findAmong (b : Cookbook) (t : Tree) (id : String) : List String → Except Fault (Option Path)
  | [] => .ok none
  | suffix :: rest => do
    match ← b.findWith t id suffix with
    | some p => return some p
    | none => b.findAmong t id rest

def find (b : Cookbook) (t : Tree) (id : String) : Except Fault (Option Path) :=
  b.findAmong t id suffixes

def asideWord : String := "_deprecated"

def isAside (p : Path) : Bool :=
  let cs := p.text.toList
  (Storage.Wildcard.tails cs).any (asideWord.toList.isPrefixOf ·)

def enter (name : String) : List String → List String
  | [] => [name]
  | n :: ns => if name < n then name :: n :: ns else if name = n then n :: ns else n :: enter name ns

def ids (b : Cookbook) (t : Tree) : List String :=
  let found := suffixes.flatMap fun suffix => (t.search? b.folder ("*" ++ suffix)).getD []
  (found.filter (!isAside ·)).foldl (fun names p => enter p.stem names) []

def valueIn (t : Tree) (p : Path) : Except Unread Value := do
  let suffix := String.ofList (Text.lower p.suffix.toList)
  let text (manner : Storage.Manner) : Except Unread (List Char) :=
    (t.readText manner p).mapError .file
  if suffix = ".yaml" || suffix = ".yml" then (Yaml.read (← text .pieces)).mapError .yaml
  else if suffix = ".json" then (Json.read (String.ofList (← text .whole))).mapError .json
  else match t.read p with
    | .ok _ => throw (.format suffix)
    | .error e => throw (.file (.trouble e))

def read (b : Cookbook) (t : Tree) (id : String) : Except Fault Definition := do
  match ← b.find t id with
  | none => throw (.notFound id)
  | some p =>
    let v ← (valueIn t p).mapError (.unread p)
    let d ← (Definition.ofValue v).mapError (.invalid p)
    if d.id.same (.text id) then return d else throw (.otherId id d.id)

def wanted? (version : Option String) : Option String :=
  version.filter (· != "latest")

def load (b : Cookbook) (t : Tree) (id : String) (version : Option String) :
    Except Fault (Definition × Cookbook) :=
  match wanted? version, b.known.lookup id with
  | none, some d => .ok (d, b)
  | wanted, _ => do
    let d ← b.read t id
    match wanted with
    | some v => if !d.version.same (.text v) then throw (.otherVersion id v d.version)
    | none => pure ()
    return (d, { b with known := (id, d) :: b.known })

end Cookbook

end Kitchen

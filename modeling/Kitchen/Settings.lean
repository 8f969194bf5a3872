import Kitchen.Journal.Record
import Kitchen.Misuse
import Kitchen.Storage.Reading
import Kitchen.Surroundings
import Kitchen.Text.Case
import Kitchen.Yaml.Meaning

namespace Kitchen

structure Settings where
  source : Option Storage.Path
  recipes : Storage.Path
  journal : Value
  limits : Value
  deriving Repr

namespace Settings

open Storage (Path Tree)
open Text (Glyph)
open Value (field?)

inductive Fault where
  | noSource
  | missing (p : Path)
  | empty
  | notMap
  | malformed (b : Yaml.Blunder)
  | level (name : String)
  | format (v : Value)
  | limit (v : Value)
  | misuse (m : Misuse)
  | unreadable (u : Storage.Unreadable)
  | document (f : Yaml.Fault)
  | notPath (kind : String)
  | bytesPath
  | noHome
  | trouble (t : Storage.Trouble)
  | piece (place size : Nat)
  | notPair (place : Nat)
  deriving Repr

namespace Fault

def isOwn : Fault → Bool
  | noSource | missing _ | empty | notMap | malformed _ | level _ | format _ | limit _ => true
  | _ => false

def message : Fault → String
  | noSource => "Either config_path or raw_config is required"
  | missing p => s!"Configuration file not found: {p.text}"
  | empty => "Configuration file is empty"
  | notMap => "Configuration file must contain a mapping"
  | malformed b => s!"Invalid YAML syntax: {b.message}"
  | level name => s!"Invalid logging level: {name}"
  | format v => s!"Invalid logging format: {v.plain}"
  | limit v => s!"execution.max_steps must be a positive integer, got {v.literal}"
  | misuse m => m.message
  | unreadable (.trouble t) => t.message
  | unreadable (.undecodable u) => u.message
  | document f => f.message
  | notPath kind => s!"expected str, bytes or os.PathLike object, not {kind}"
  | bytesPath =>
    "argument should be a str object or an os.PathLike object returning str, not <class 'bytes'>"
  | noHome => "Could not determine home directory."
  | trouble t => t.message
  | piece place size =>
    s!"dictionary update sequence element #{place} has length {size}; 2 is required"
  | notPair place => s!"cannot convert dictionary update sequence element #{place} to a sequence"

end Fault

def configName : String := "config.yaml"

def pathAt (w : Surroundings) (name : List Glyph) : Except Fault Path :=
  match w.expand? (Glyph.plain name) with
  | some p => .ok p
  | none => .error .noHome

def pathOf (w : Surroundings) (v : Value) : Except Fault Path :=
  match v with
  | .text s => pathAt w (Glyph.ofText s)
  | .torn t => pathAt w t.glyphs
  | .bytes _ => .error .bytesPath
  | v => .error (.notPath (Json.shortKind v))

def sectionOf (name : String) (fields : List (Value × Value)) : Value :=
  let v := (field? name fields).getD .null
  if v.truthy then v else .map []

-- Settings from fields; a path that is not absolute starts from the folder of the file, or from the home of the
-- program.
def ofFields (w : Surroundings) (source : Option Path) (fields : List (Value × Value)) :
    Except Fault Settings := do
  let p ← pathOf w ((field? "recipes_dir" fields).getD (.text "recipes"))
  let base ←
    if p.isAbsolute then pure Path.here
    else match source, w.home? with
      | some file, _ => pure file.parent
      | none, some home => pure home
      | none, none => throw .noHome
  return ⟨source, base.under p, sectionOf "logging" fields, sectionOf "execution" fields⟩

def fieldsOf (v : Value) : Except Fault (List (Value × Value)) :=
  match v with
  | .map es => .ok es
  | .list xs => pairs 0 [] xs
  | .text s => if s.isEmpty then .ok [] else .error (.piece 0 1)
  | .torn _ => .error (.piece 0 1)
  | v => .error (.misuse (.notIterable v.kind))
where
  pairs (place : Nat) (es : List (Value × Value)) : List Value → Except Fault (List (Value × Value))
  | [] => .ok es
  | .list [k, v] :: rest =>
    if k.isHashable then pairs (place + 1) (Value.insert k v es) rest
    else .error (.misuse (.unhashable k.kind))
  | .list xs :: _ => .error (.piece place xs.length)
  | .text s :: rest =>
    match s.toList with
    | [k, v] =>
      pairs (place + 1) (Value.insert (.text (String.singleton k)) (.text (String.singleton v)) es) rest
    | cs => .error (.piece place cs.length)
  | .torn t :: rest =>
    match t.glyphs with
    | [k, v] => pairs (place + 1) (Value.insert (.ofGlyphs [k]) (.ofGlyphs [v]) es) rest
    | gs => .error (.piece place gs.length)
  | .map [k, v] :: rest => pairs (place + 1) (Value.insert k.1 v.1 es) rest
  | .map es :: _ => .error (.piece place es.length)
  | _ :: _ => .error (.notPair place)

def ofValue (w : Surroundings) (v : Value) : Except Fault Settings := do
  ofFields w none (← fieldsOf v)

def standardFields : List (Value × Value) :=
  [(.text "recipes_dir", .text "recipes"),
    (.text "logging", .map [(.text "level", .text "INFO"), (.text "format", .text "pretty"),
      (.text "console", .bool true)]),
    (.text "execution", .map [(.text "max_steps", .null)])]

def standard (w : Surroundings) : Except Fault Settings :=
  ofFields w none standardFields

def fieldsIn : Except Yaml.Fault Value → Except Fault (List (Value × Value))
  | .error (.malformed b) => .error (.malformed b)
  | .error f => .error (.document f)
  | .ok v =>
    if v.truthy then
      match v with
      | .map es => .ok es
      | _ => .error .notMap
    else .error .empty

def documentFields (t : Tree) (p : Path) : Except Fault (List (Value × Value)) := do
  if !t.has p then throw (.missing p)
  fieldsIn (Yaml.read (← (t.readText .pieces p).mapError .unreadable))

def ofFile (w : Surroundings) (t : Tree) (p : Path) : Except Fault Settings := do
  ofFields w (some p) (← documentFields t p)

def entry (sect : Value) (name : String) (default : Value) : Except Fault Value :=
  match sect with
  | .map es => .ok ((field? name es).getD default)
  | v => .error (.misuse (.lacks v.kind "get"))

def demand (holds : Bool) (f : Fault) : Except Fault Unit :=
  if holds then .ok () else .error f

def hidden : Fault := .misuse (.unwritable .tooLong)

def about (v : Value) (f : Fault) : Fault :=
  if v.isShowable then f else hidden

def level (s : Settings) : Except Fault String := do
  let v ← entry s.journal "level" (.text "INFO")
  demand v.isShowable hidden
  return String.ofList (Text.upper v.plain.toList)

def format (s : Settings) : Except Fault Value :=
  entry s.journal "format" (.text "pretty")

def console (s : Settings) : Except Fault Value :=
  entry s.journal "console" (.bool true)

def limit (s : Settings) : Except Fault Value :=
  entry s.limits "max_steps" .null

def replaceAll (gs old new : List Glyph) : List Glyph :=
  go gs.length gs
where
  go : Nat → List Glyph → List Glyph
  | 0, gs => gs
  | _, [] => []
  | fuel + 1, g :: rest =>
    if old.isPrefixOf (g :: rest) then new ++ go fuel ((g :: rest).drop old.length)
    else g :: go fuel rest

def today (w : Surroundings) (name : List Glyph) : List Glyph :=
  replaceAll name (Glyph.ofText "\x7bdate\x7d") (Glyph.ofText w.today)

def dated (w : Surroundings) : Value → Except Fault (List Glyph)
  | .text s => .ok (today w (Glyph.ofText s))
  | .torn t => .ok (today w t.glyphs)
  | .bytes _ => .error (.misuse (.needsBytes "str"))
  | .date _ | .moment _ => .error (.misuse (.notWhole "str"))
  | v => .error (.misuse (.lacks v.kind "replace"))

structure Spot where
  path : Path
  name : List Glyph

def isNameable : Glyph → Bool
  | .char _ => true
  | .half h => 0xDC80 ≤ h.code && h.code ≤ 0xDCFF

def Spot.unnameable? (s : Spot) : Option Misuse :=
  let parts := (Text.splitOn (.char '/') s.name).filter fun part => part != [] && part != [.char '.']
  match ([.char '/'].intercalate parts.dropLast).dropWhile isNameable with
  | [] => none
  | rest =>
    -- The folder ends as its name does, whatever home or folder it was put under.
    let place := s.path.parent.text.length - rest.length
    some (.unencodable place ((rest.takeWhile Glyph.isHalf).filterMap Glyph.half?))

def journalAt (w : Surroundings) (source : Option Path) (output : Value) : Except Fault (Option Spot) :=
  if output.truthy then do
    let name ← dated w output
    let p ← pathAt w name
    match source with
    | some file => return some ⟨file.parent.under p, name⟩
    | none => return some ⟨p, name⟩
  else .ok none

def journalSpot (w : Surroundings) (s : Settings) : Except Fault (Option Spot) := do
  journalAt w s.source (← entry s.journal "output" .null)

def journalFile (w : Surroundings) (s : Settings) : Except Fault (Option Path) := do
  return (← s.journalSpot w).map (·.path)

def levels : List String := ["DEBUG", "INFO", "WARNING", "ERROR", "CRITICAL"]

def formats : List String := ["structured", "pretty"]

def allowsLimit : Value → Bool
  | .null => true
  | v => v.whole?.any (1 ≤ ·)

def prepare (t : Tree) : Option Spot → Except Fault Tree
  | none => .ok t
  | some s =>
    match s.unnameable? with
    | some m => .error (.misuse m)
    | none =>
      let folder := s.path.parent
      if t.has folder then .ok t
      else if folder.hasNull then .error (.misuse .nullInPath)
      else (t.ensureFolders folder).mapError .trouble

def validate (w : Surroundings) (t : Tree) (s : Settings) : Except Fault Tree := do
  let level ← s.level
  demand (levels.contains level) (.level level)
  let format ← s.format
  demand (formats.any fun f => format.same (.text f)) (about format (.format format))
  let limit ← s.limit
  demand (allowsLimit limit) (about limit (.limit limit))
  prepare t (← s.journalSpot w)

def load (w : Surroundings) (t : Tree) (file : Option Path) : Except Fault (Settings × Tree) := do
  let p ← match file, w.home? with
    | some p, _ => pure p
    | none, some home => pure (home.child configName)
    | none, none => throw .noHome
  let s ← ofFile w t p
  return (s, ← s.validate w t)

def literal (s : Settings) : Except Fault String := do
  let limit ← s.limit
  demand limit.isShowable hidden
  return s!"RouxConfig(recipes_dir={s.recipes.text}, max_steps={limit.plain})"

end Settings

end Kitchen

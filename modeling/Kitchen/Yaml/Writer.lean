import Kitchen.Json.Writer
import Kitchen.Yaml.Look

namespace Kitchen.Yaml

open Text (Glyph)

-- What is written so far, the column reached, and whether only blanks were written last: at all, and since the
-- line began.
structure Sheet where
  text : String
  column : Nat
  spaced : Bool
  indenting : Bool

namespace Sheet

def blank : Sheet := ⟨"", 0, true, true⟩

def width : Nat := 80

def put (cs : List Char) (s : Sheet) : Sheet :=
  { s with text := s.text ++ String.ofList cs, column := s.column + cs.length }

def breakLine (br : Char) (s : Sheet) : Sheet :=
  ⟨s.text.push br, 0, true, true⟩

def toColumn (column : Nat) (s : Sheet) : Sheet :=
  let s :=
    if !s.indenting || column < s.column || (s.column = column && !s.spaced) then s.breakLine '\n' else s
  if s.column < column then
    { s.put (List.replicate (column - s.column) ' ') with spaced := true }
  else s

def sign (cs : List Char) (apart indents : Bool) (s : Sheet) : Sheet :=
  let s' := s.put (if s.spaced || !apart then cs else ' ' :: cs)
  { s' with spaced := false, indenting := s.indenting && indents }

def settle (s : Sheet) : Sheet := { s with spaced := false, indenting := false }

inductive Run where
  | spaces (count : Nat)
  | breaks (cs : List Char)
  | word (cs : List Char)

def runs : List Char → List Run
  | [] => []
  | c :: rest =>
    if c = ' ' then
      match runs rest with
      | .spaces n :: more => .spaces (n + 1) :: more
      | more => .spaces 1 :: more
    else if Look.isBreak c then
      match runs rest with
      | .breaks cs :: more => .breaks (c :: cs) :: more
      | more => .breaks [c] :: more
    else
      match runs rest with
      | .word cs :: more => .word (c :: cs) :: more
      | more => .word [c] :: more

def plainRun (indent : Nat) (folds : Bool) (s : Sheet) : Run → Sheet
  | .spaces n =>
    if n = 1 && width < s.column && folds then (s.toColumn indent).settle
    else s.put (List.replicate n ' ')
  | .breaks cs | .word cs => s.put cs

def plain (indent : Nat) (folds : Bool) (cs : List Char) (s : Sheet) : Sheet :=
  if cs.isEmpty then s
  else
    let s := if s.spaced then s else s.put [' ']
    (runs cs).foldl (plainRun indent folds) s.settle

def doubleQuotes (cs : List Char) : List Char :=
  cs.flatMap fun c => if c = '\'' then ['\'', '\''] else [c]

def singleRun (indent : Nat) (folds first last : Bool) (s : Sheet) : Run → Sheet
  | .spaces n =>
    if n = 1 && width < s.column && folds && !first && !last then s.toColumn indent
    else s.put (List.replicate n ' ')
  | .breaks cs =>
    let s := if cs.head? = some '\n' then s.breakLine '\n' else s
    (cs.foldl (fun s br => s.breakLine br) s).toColumn indent
  | .word cs => s.put (doubleQuotes cs)

def singleRuns (indent : Nat) (folds first : Bool) (s : Sheet) : List Run → Sheet
  | [] => s
  | run :: rest =>
    singleRuns indent folds false (s.singleRun indent folds first rest.isEmpty run) rest

def single (indent : Nat) (folds : Bool) (cs : List Char) (s : Sheet) : Sheet :=
  ((s.sign ['\''] true false).singleRuns indent folds true (runs cs)).sign ['\''] false false

-- Text in double quotes from a place on; `held` is not yet written. A line may be folded at a space or after an
-- escape, but not right at either end of the text.
def doubleFrom (wide folds : Bool) (indent : Nat) (index : Nat) (held : List Char) (s : Sheet) :
    List Glyph → Sheet
  | [] => s.put held
  | g :: rest =>
    let escaped := Look.escapeGlyph? wide g
    let s := match escaped with
      | some e => (s.put held).put e
      | none => s
    let held := if escaped.isSome then [] else held
    let atSeam := g = .char ' ' || held.isEmpty
    let full := width + (if escaped.isSome then 1 else 0) < s.column + held.length
    let next := if escaped.isSome then [] else [g.shown]
    if 0 < index && !rest.isEmpty && atSeam && full && folds then
      let s := ((s.put (held ++ ['\\'])).toColumn indent).settle
      let ahead := if escaped.isSome then rest.head? else some g
      let s := if ahead = some (.char ' ') then s.put ['\\'] else s
      doubleFrom wide folds indent (index + 1) next s rest
    else doubleFrom wide folds indent (index + 1) (held ++ next) s rest

def double (wide : Bool) (indent : Nat) (folds : Bool) (gs : List Glyph) (s : Sheet) : Sheet :=
  ((s.sign ['"'] true false).doubleFrom wide folds indent 0 [] gs).sign ['"'] false false

def scalar (wide key isText : Bool) (indent : Nat) (cs : List Char) (s : Sheet) : Sheet :=
  match Look.form wide key isText cs with
  | .plain => s.plain indent (!key) cs
  | .single => s.single indent (!key) cs
  | .double => s.double wide indent (!key) (Glyph.ofChars cs)

end Sheet

def realText (x : Float) : List Char :=
  match Number.parts x with
  | .nan => ".nan".toList
  | .infinite negative => (if negative then "-.inf" else ".inf").toList
  | .finite .. =>
    let cs := (Number.floatText x).toList
    if cs.contains '.' || !cs.contains 'e' then cs
    else cs.takeWhile (· ≠ 'e') ++ ".0".toList ++ cs.dropWhile (· ≠ 'e')

def scalarText? : Value → Option (List Char × Nat)
  | .null => some ("null".toList, 6)
  | .bool b => some ((if b then "true" else "false").toList, 6)
  | .int n => some ((toString n).toList, 5)
  | .float x => some (realText x, 7)
  | .text s => some (s.toList, 5)
  | .date d => some (d.iso.toList, 11)
  | .moment m => some ((m.iso " ").toList, 11)
  | .torn t => some (t.glyphs.map Glyph.shown, 5)
  | _ => none

def shortKey : Nat := 128

def isShortKey (k : Value) : Bool :=
  match scalarText? k with
  | some (cs, tag) => cs.length + tag < shortKey && !cs.isEmpty && !Look.isMultiline cs
  | none => false

def inner : Option Nat → Nat
  | none => 0
  | some n => n + 2

def writeScalar (wide key : Bool) (column : Option Nat) (v : Value) (s : Sheet) : Sheet :=
  let indent := column.getD 0 + 2
  match v, scalarText? v with
  | .torn t, _ => s.double wide indent (!key) t.glyphs
  | _, some (cs, _) => s.scalar wide key v.isText indent cs
  | _, none => s

mutual

def writeValue (wide : Bool) (column : Option Nat) (keyed : Bool) (s : Sheet) : Value → Sheet
  | .list [] | .tuple [] => s.sign "[]".toList true false
  | .map [] => s.sign "\x7b\x7d".toList true false
  | .list xs | .tuple xs =>
    let column := if keyed && !s.indenting then column.getD 0 else inner column
    writeItems wide column s xs
  | .map es => writeEntries wide (inner column) s es
  | v => writeScalar wide false column v s

def writeItems (wide : Bool) (column : Nat) (s : Sheet) : List Value → Sheet
  | [] => s
  | x :: xs =>
    let s := (s.toColumn column).sign ['-'] true true
    writeItems wide column (writeValue wide (some column) false s x) xs

def writeEntries (wide : Bool) (column : Nat) (s : Sheet) : List (Value × Value) → Sheet
  | [] => s
  | (k, v) :: es =>
    let s := s.toColumn column
    let s :=
      if isShortKey k then (writeScalar wide true (some column) k s).sign [':'] false false
      else
        let s := writeScalar wide false (some column) k (s.sign ['?'] true true)
        (s.toColumn column).sign [':'] true true
    writeEntries wide column (writeValue wide (some column) true s v) es

end

def write (wide : Bool) (entries : List (Value × Value)) : String :=
  ((writeValue wide none false .blank (.map entries)).toColumn 0).text

end Kitchen.Yaml

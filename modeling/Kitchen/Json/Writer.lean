import Kitchen.Number.Integer
import Kitchen.Number.Shortest
import Kitchen.Text.Hex
import Kitchen.Value.Basic

namespace Kitchen.Json

open Text (Glyph)

structure Layout where
  comma : List Char
  colon : List Char
  sorted : Bool

def spaced : Layout := ⟨[',', ' '], [':', ' '], false⟩

def canonical : Layout := ⟨[','], [':'], true⟩

inductive Unwritable where
  | value (kind : String)
  | key (kind : String)
  | unordered (later earlier : String)
  | tooLong
  deriving DecidableEq, Repr

def Unwritable.message : Unwritable → String
  | value kind => s!"Object of type {kind} is not JSON serializable"
  | key kind => s!"keys must be str, int, float, bool or None, not {kind}"
  | unordered a b => s!"'<' not supported between instances of '{a}' and '{b}'"
  | tooLong =>
    s!"Exceeds the limit ({Number.digitLimit} digits) for integer string conversion; "
      ++ "use sys.set_int_max_str_digits() to increase the limit"

def unitEscape (n : Nat) : List Char :=
  '\\' :: 'u' :: Text.hexPadded n 4

def escaped (c : Char) : List Char :=
  let n := c.toNat
  if c = '"' then ['\\', '"']
  else if c = '\\' then ['\\', '\\']
  else if c = '\n' then ['\\', 'n']
  else if c = '\r' then ['\\', 'r']
  else if c = '\t' then ['\\', 't']
  else if n = 0x08 then ['\\', 'b']
  else if n = 0x0C then ['\\', 'f']
  else if 0x20 ≤ n ∧ n ≤ 0x7E then [c]
  else if n < 0x10000 then unitEscape n
  else unitEscape (0xD800 + (n - 0x10000) / 0x400) ++ unitEscape (0xDC00 + (n - 0x10000) % 0x400)

def escapedGlyph : Glyph → List Char
  | .char c => escaped c
  | .half h => unitEscape h.code

def quoted (gs : List Glyph) : List Char :=
  '"' :: gs.flatMap escapedGlyph ++ ['"']

def intText (n : Int) : List Char :=
  (toString n).toList

def floatText (x : Float) : List Char :=
  match Number.parts x with
  | .nan => "NaN".toList
  | .infinite negative => (if negative then "-Infinity" else "Infinity").toList
  | .finite .. => (Number.floatText x).toList

def shortKind : Value → String
  | .date _ => "date"
  | .moment _ => "datetime"
  | v => v.kind

def keyText : Value → Except Unwritable (List Glyph)
  | .text s => .ok (Glyph.ofText s)
  | .torn t => .ok t.glyphs
  | .null => .ok (Glyph.ofText "null")
  | .bool b => .ok (Glyph.ofText (if b then "true" else "false"))
  | .int n => .ok (Glyph.ofChars (intText n))
  | .float x => .ok (Glyph.ofChars (floatText x))
  | v => .error (.key (shortKind v))

def numberBefore? (a b : Value) : Option Bool :=
  match a.whole?, b.whole? with
  | some m, some n => some (m < n)
  | some m, none => match b with
    | .float y => some (Number.compareInt m y == some .lt)
    | _ => none
  | none, some n => match a with
    | .float x => some (Number.compareInt n x == some .gt)
    | _ => none
  | none, none => match a, b with
    | .float x, .float y => some (x < y)
    | .date x, .date y => some (x.iso < y.iso)
    | _, _ => none

def keyBefore? (a b : Value) : Option Bool :=
  match a.glyphs?, b.glyphs? with
  | some gs, some hs => some (Glyph.before gs hs)
  | none, none => numberBefore? a b
  | _, _ => none

def place (k : Value) (v : List Char) :
    List (Value × List Char) → Except Unwritable (List (Value × List Char))
  | [] => .ok [(k, v)]
  | (k', v') :: rest =>
    match keyBefore? k k' with
    | none => .error (.unordered k.kind k'.kind)
    | some true => .ok ((k, v) :: (k', v') :: rest)
    | some false => ((k', v') :: ·) <$> place k v rest

def sortEntries (es : List (Value × List Char)) : Except Unwritable (List (Value × List Char)) :=
  es.foldlM (fun sorted (k, v) => place k v sorted) []

def joined (separator : List Char) : List (List Char) → List Char
  | [] => []
  | [x] => x
  | x :: xs => x ++ separator ++ joined separator xs

mutual

def chars (layout : Layout) : Value → Except Unwritable (List Char)
  | .null => .ok "null".toList
  | .bool b => .ok (if b then "true" else "false").toList
  | .int n => .ok (intText n)
  | .float x => .ok (floatText x)
  | .text s => .ok (quoted (Glyph.ofText s))
  | .torn t => .ok (quoted t.glyphs)
  | .list xs | .tuple xs => do
    return '[' :: joined layout.comma (← charsOfAll layout xs) ++ [']']
  | .map es => do
    let written ← charsOfEntries layout es
    let written ← if layout.sorted then sortEntries written else .ok written
    let members ← written.mapM fun (k, v) => do return quoted (← keyText k) ++ layout.colon ++ v
    return '{' :: joined layout.comma members ++ ['}']
  | v => .error (.value (shortKind v))

def charsOfAll (layout : Layout) : List Value → Except Unwritable (List (List Char))
  | [] => .ok []
  | x :: xs => do return (← chars layout x) :: (← charsOfAll layout xs)

def charsOfEntries (layout : Layout) :
    List (Value × Value) → Except Unwritable (List (Value × List Char))
  | [] => .ok []
  | (k, v) :: es => do return (k, ← chars layout v) :: (← charsOfEntries layout es)

end

def write (layout : Layout) (v : Value) : Except Unwritable String :=
  String.ofList <$> chars layout v

end Kitchen.Json

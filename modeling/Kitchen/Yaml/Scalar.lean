import Kitchen.Yaml.Token

namespace Kitchen.Yaml.Place

open Text (Glyph)

def foldBreak (first more : List Char) : List Char :=
  if first ≠ ['\n'] then first ++ more else if more.isEmpty then [' '] else more

def escapes : List (Char × Char) :=
  [('0', '\x00'), ('a', '\x07'), ('b', '\x08'), ('t', '\t'), ('\t', '\t'), ('n', '\n'),
    ('v', '\x0b'), ('f', '\x0c'), ('r', '\r'), ('e', '\x1b'), (' ', ' '), ('"', '"'),
    ('\\', '\\'), ('/', '/'), ('N', '\x85'), ('_', '\xa0'), ('L', '\u2028'), ('P', '\u2029')]

def codeSize? (c : Char) : Option Nat :=
  [('x', 2), ('u', 4), ('U', 8)].lookup c

def quotedBreaks : Nat → Place → Except Fault (List Char × Place)
  | 0, p => .ok ([], p)
  | fuel + 1, p =>
    if p.atMark then blunder .markInQuote
    else
      let p := (p.span isSpace).2
      match p.lineBreak? with
      | none => .ok ([], p)
      | some (br, p) => do
        let (more, p) ← quotedBreaks fuel p
        return (br ++ more, p)

def quotedSpaces (p : Place) : Except Fault (List Char × Place) :=
  let (spaces, p) := p.span isSpace
  match p.lineBreak? with
  | some (br, p) => do
    let (more, p) ← quotedBreaks (p.rest.length + 1) p
    return (foldBreak br more, p)
  | none => if p.rest.isEmpty then blunder .unclosedQuote else .ok (spaces, p)

def escape (p : Place) : Except Fault (List Glyph × Place) :=
  let p := p.next
  match p.head? with
  | none => blunder .escape
  | some c =>
    match escapes.lookup c, codeSize? c, p.lineBreak? with
    | some meaning, _, _ => .ok ([.char meaning], p.next)
    | none, some size, _ =>
      let digits := p.next.rest.take size
      if digits.length < size || !digits.all isHexDigit then blunder .escape
      else if 0x110000 ≤ hexNumber digits then .error .charRange
      else .ok ([.ofCode (hexNumber digits)], p.next.skip size)
    | none, none, some (_, p) => do
      let (breaks, p) ← quotedBreaks (p.rest.length + 1) p
      return (Glyph.ofChars breaks, p)
    | none, none, none => blunder .escape

def quotedFrom (quote : Char) : Nat → Place → Except Fault (List Glyph × Place)
  | 0, _ => blunder .unclosedQuote
  | fuel + 1, p =>
    match p.rest with
    | [] => blunder .unclosedQuote
    | c :: rest =>
      if c = quote then
        if quote = '\'' && rest.head? = some '\'' then do
          let (more, p) ← quotedFrom quote fuel (p.skip 2)
          return (.char '\'' :: more, p)
        else .ok ([], p.next)
      else if c = '\\' && quote = '"' then do
        let (gs, p) ← p.escape
        let (more, p) ← quotedFrom quote fuel p
        return (gs ++ more, p)
      else if isSpace c || isBreak c then do
        let (cs, p) ← p.quotedSpaces
        let (more, p) ← quotedFrom quote fuel p
        return (Glyph.ofChars cs ++ more, p)
      else do
        let (more, p) ← quotedFrom quote fuel p.next
        return (.char c :: more, p)

def quoted (quote : Char) (p : Place) : Except Fault (List Glyph × Place) :=
  p.next.quotedFrom quote (p.rest.length + 1)

-- The signs after the mark of a block: whether the breaks at its end are all kept or all dropped, and by how
-- much it is indented.
structure Header where
  keeps : Option Bool
  indent : Option Nat

def sign? (p : Place) : Option Bool :=
  match p.head? with
  | some '+' => some true
  | some '-' => some false
  | _ => none

def indentSign? (p : Place) : Option Nat :=
  (p.head?.filter isDigit).map fun c => c.toNat - 48

def header (p : Place) : Except Fault (Header × Place) :=
  let skipIf (b : Bool) (p : Place) : Place := if b then p.next else p
  let early := sign? p
  let p := skipIf early.isSome p
  let indent := indentSign? p
  let p := skipIf indent.isSome p
  let late := if early.isSome || indent.isNone then none else sign? p
  let p := skipIf late.isSome p
  if indent = some 0 || !endsField p.head? then blunder .blockHeader
  else
    let p := p.skipSpaces.skipComment
    if !endsLine p.head? then blunder .blockHeader
    else .ok (⟨early.or late, indent⟩, ((p.lineBreak?).map (·.2)).getD p)

def indentTo (column : Nat) (p : Place) : Place :=
  p.skip (min (p.rest.takeWhile (· = ' ')).length (column - p.column))

def emptyLines (indent : Nat) : Nat → Place → List Char × Place
  | 0, p => ([], p)
  | fuel + 1, p =>
    let p := p.indentTo indent
    match p.lineBreak? with
    | none => ([], p)
    | some (br, p) =>
      let (more, p) := emptyLines indent fuel p
      (br ++ more, p)

def leadingLines : Nat → Nat → Place → List Char × Nat × Place
  | 0, most, p => ([], most, p)
  | fuel + 1, most, p =>
    if p.head? = some ' ' then leadingLines fuel (max most p.next.column) p.next
    else match p.lineBreak? with
      | none => ([], most, p)
      | some (br, p) =>
        let (more, most, p) := leadingLines fuel most p
        (br ++ more, most, p)

-- What a block holds: its text up to the end of its last line, the break there, the breaks after it, and the
-- place where it ends.
structure Body where
  text : List Char
  last : List Char
  trailing : List Char
  place : Place

def lines (folded : Bool) (indent : Nat) : Nat → List Char → Place → Body
  | 0, breaks, p => ⟨[], [], breaks, p⟩
  | fuel + 1, breaks, p =>
    if p.column ≠ indent || p.rest.isEmpty then ⟨[], [], breaks, p⟩
    else
      let solid := !p.head?.any isSpace
      let (line, p) := p.span (!isBreak ·)
      let (br, p) := (p.lineBreak?).getD ([], p)
      let (more, p) := emptyLines indent (p.rest.length + 1) p
      if p.column ≠ indent || p.rest.isEmpty then ⟨breaks ++ line, br, more, p⟩
      else
        let joins := folded && br = ['\n'] && solid && !p.head?.any isSpace
        let glue := if !joins then br else if more.isEmpty then [' '] else []
        let body := lines folded indent fuel more p
        { body with text := breaks ++ line ++ glue ++ body.text }

def block (outer : Int) (p : Place) : Except Fault (List Char × Place) := do
  let folded := p.head? = some '>'
  let (h, p) ← p.next.header
  let least := (max (outer + 1) 1).toNat
  let (indent, breaks, p) :=
    match h.indent with
    | some n =>
      let indent := least + n - 1
      let (breaks, p) := p.emptyLines indent (p.rest.length + 1)
      (indent, breaks, p)
    | none =>
      let (breaks, most, p) := p.leadingLines (p.rest.length + 1) 0
      (max least most, breaks, p)
  let body := p.lines folded indent (p.rest.length + 1) breaks
  let last := if h.keeps = some false then [] else body.last
  let trailing := if h.keeps = some true then body.trailing else []
  return (body.text ++ last ++ trailing, body.place)

def isFlowSign (c : Char) : Bool := ",?[]\x7b\x7d".toList.contains c

def plainWord (flow : Bool) : List Char → List Char
  | [] => []
  | c :: rest =>
    let colonEnds := endsWord rest.head? || (flow && rest.head?.any (",[]\x7b\x7d".toList.contains ·))
    if endsWord (some c) || (c = ':' && colonEnds) || (flow && isFlowSign c) then []
    else c :: plainWord flow rest

def plainBreaks : Nat → Place → Option (List Char) × Place
  | 0, p => (some [], p)
  | fuel + 1, p =>
    if p.head? = some ' ' then plainBreaks fuel p.next
    else match p.lineBreak? with
      | none => (some [], p)
      | some (br, p) =>
        if p.atMark then (none, p)
        else
          let (more, p) := plainBreaks fuel p
          (more.map (br ++ ·), p)

-- What stands between two plain words, and whether it holds a break. Where nothing stands the scalar ends.
def plainGap (p : Place) : List Char × Bool × Place :=
  let (spaces, p) := p.span (· = ' ')
  match p.lineBreak? with
  | none => (spaces, false, p)
  | some (br, p) =>
    if p.atMark then ([], true, p)
    else match plainBreaks (p.rest.length + 1) p with
      | (none, p) => ([], true, p)
      | (some more, p) => (foldBreak br more, true, p)

def plainFrom (flow : Bool) (indent : Int) : Nat → List Char → Bool → Place → List Char × Bool × Place
  | 0, _, broke, p => ([], broke, p)
  | fuel + 1, gap, broke, p =>
    let word := plainWord flow p.rest
    if p.head? = some '#' || word.isEmpty then ([], broke, p)
    else
      let (next, broke, p) := (p.skip word.length).plainGap
      if next.isEmpty || p.head? = some '#' || (!flow && (p.column : Int) < indent) then
        (gap ++ word, broke, p)
      else
        let (more, broke, p) := plainFrom flow indent fuel next broke p
        (gap ++ word ++ more, broke, p)

def plain (flow : Bool) (indent : Int) (p : Place) : List Char × Bool × Place :=
  p.plainFrom flow indent (p.rest.length + 1) [] false

end Kitchen.Yaml.Place

import Kitchen.Yaml.Scalar

namespace Kitchen.Yaml

structure Candidate where
  count : Nat
  required : Bool
  index : Nat
  line : Nat
  column : Nat
  deriving Repr

def keyLimit : Nat := 1024

def Candidate.isStale (p : Place) (k : Candidate) : Bool :=
  k.line != p.line || keyLimit < p.index - k.index

structure Lexer where
  place : Place
  tokens : Array Token
  depth : Nat
  indent : Int
  outer : List Int
  fresh : Bool
  candidates : List (Nat × Candidate)

namespace Lexer

def start (cs : List Char) : Lexer := ⟨.start cs, #[], 0, -1, [], true, []⟩

def push (t : Token) (l : Lexer) : Lexer := { l with tokens := l.tokens.push t }

def advance (n : Nat) (l : Lexer) : Lexer := { l with place := l.place.skip n }

def expectKey (fresh : Bool) (l : Lexer) : Lexer := { l with fresh }

def dropStale (l : Lexer) : Except Fault Lexer :=
  if l.candidates.any fun k => k.2.isStale l.place && k.2.required then blunder .keyWithoutValue
  else .ok { l with candidates := l.candidates.filter fun k => !k.2.isStale l.place }

def candidate? (l : Lexer) : Option Candidate :=
  l.candidates.lookup l.depth

def withoutCandidate (l : Lexer) : Lexer :=
  { l with candidates := l.candidates.filter fun k => k.1 != l.depth }

def giveUp (l : Lexer) : Except Fault Lexer :=
  if l.candidate?.any (·.required) then blunder .keyWithoutValue else .ok l.withoutCandidate

def remember (l : Lexer) : Except Fault Lexer := do
  if !l.fresh then return l
  let l ← l.giveUp
  let p := l.place
  let k : Candidate :=
    ⟨l.tokens.size, l.depth = 0 && l.indent = p.column, p.index, p.line, p.column⟩
  return { l with candidates := (l.depth, k) :: l.candidates }

def closeBlocks (column : Int) (indent : Int) (outer : List Int) (tokens : Array Token) :
    Int × List Int × Array Token :=
  match outer with
  | [] => (indent, [], tokens)
  | around :: rest =>
    if column < indent then closeBlocks column around rest (tokens.push .blockEnd)
    else (indent, around :: rest, tokens)

def unwind (column : Int) (l : Lexer) : Lexer :=
  if l.depth ≠ 0 then l
  else
    let (indent, outer, tokens) := closeBlocks column l.indent l.outer l.tokens
    { l with indent, outer, tokens }

-- Opens a block at a column, if it is indented by more than what is around. Its token takes a place among the
-- others.
def openBlock (place : Nat) (t : Token) (column : Nat) (l : Lexer) : Lexer :=
  if l.depth = 0 ∧ l.indent < column then
    { l with
      indent := column
      outer := l.indent :: l.outer
      tokens := l.tokens.insertIdxIfInBounds place t }
  else l

def toNext : Nat → Lexer → Lexer
  | 0, l => l
  | fuel + 1, l =>
    let p := l.place.skipSpaces.skipComment
    match p.lineBreak? with
    | none => { l with place := p }
    | some (_, p) => toNext fuel { l with place := p, fresh := l.fresh || l.depth = 0 }

def outside (l : Lexer) (f : Place → Except Fault (Token × Place)) : Except Fault Lexer := do
  let l ← (l.unwind (-1)).giveUp
  let (t, p) ← f l.place
  return { (l.push t) with place := p, fresh := false }

def starting (l : Lexer) (f : Place → Except Fault (Token × Place)) : Except Fault Lexer := do
  let l ← l.remember
  let (t, p) ← f l.place
  return { (l.push t) with place := p, fresh := false }

def opening (t : Token) (l : Lexer) : Except Fault Lexer := do
  let l ← l.remember
  return ((l.push t).advance 1).expectKey true |> fun l => { l with depth := l.depth + 1 }

def closing (t : Token) (l : Lexer) : Except Fault Lexer := do
  let l ← l.giveUp
  return ((l.push t).advance 1).expectKey false |> fun l => { l with depth := l.depth - 1 }

def comma (l : Lexer) : Except Fault Lexer := do
  let l ← l.giveUp
  return ((l.push .comma).advance 1).expectKey true

def item (l : Lexer) : Except Fault Lexer := do
  if l.depth = 0 ∧ !l.fresh then blunder .itemHere
  let l ← (l.openBlock l.tokens.size .blockList l.place.column).giveUp
  return ((l.push .item).advance 1).expectKey true

def key (l : Lexer) : Except Fault Lexer := do
  if l.depth = 0 ∧ !l.fresh then blunder .keyHere
  let l ← (l.openBlock l.tokens.size .blockMap l.place.column).giveUp
  return ((l.push .key).advance 1).expectKey (l.depth = 0)

def value (l : Lexer) : Except Fault Lexer := do
  match l.candidate? with
  | some k =>
    let l := { l.withoutCandidate with tokens := l.tokens.insertIdxIfInBounds k.count .key }
    let l := l.openBlock k.count .blockMap k.column
    return ((l.push .value).advance 1).expectKey false
  | none =>
    if l.depth = 0 ∧ !l.fresh then blunder .valueHere
    let l ← (l.openBlock l.tokens.size .blockMap l.place.column).giveUp
    return ((l.push .value).advance 1).expectKey (l.depth = 0)

def named (make : String → Token) (p : Place) : Except Fault (Token × Place) :=
  p.name.map fun (name, p) => (make name, p)

def block (l : Lexer) : Except Fault Lexer := do
  let l ← l.giveUp
  let (cs, p) ← l.place.block l.indent
  return { (l.push (.scalar (String.ofList cs) false)) with place := p, fresh := true }

def quoted (c : Char) (p : Place) : Except Fault (Token × Place) :=
  (p.quoted c).map fun (gs, p) =>
    match Value.ofGlyphs gs with
    | .torn t => (.torn t, p)
    | v => (.scalar v.plain false, p)

def plain (l : Lexer) : Except Fault Lexer := do
  let l ← l.remember
  let (cs, broke, p) := l.place.plain (0 < l.depth) (l.indent + 1)
  return { (l.push (.scalar (String.ofList cs) true)) with place := p, fresh := broke }

def isSign (c : Char) : Bool := "-?:,[]\x7b\x7d#&*!|>'\"%@\x60".toList.contains c

def startsPlain (flow : Bool) (c : Char) (rest : List Char) : Bool :=
  !(isSign c || endsWord (some c))
    || (!endsWord rest.head? && (c = '-' || (!flow && (c = '?' || c = ':'))))

def tokenAt (c : Char) (rest : List Char) (l : Lexer) : Except Fault Lexer :=
  let flow : Bool := l.depth ≠ 0
  let apart := endsWord rest.head?
  let mark := l.place.column = 0 && l.place.atMark
  if c = '%' && l.place.column = 0 then l.outside Place.directive
  else if c = '-' && mark then l.outside fun p => .ok (.documentStart, p.skip 3)
  else if c = '.' && mark then l.outside fun p => .ok (.documentEnd, p.skip 3)
  else if c = '[' then l.opening .openList
  else if c = '{' then l.opening .openMap
  else if c = ']' then l.closing .closeList
  else if c = '}' then l.closing .closeMap
  else if c = ',' then l.comma
  else if c = '-' && apart then l.item
  else if c = '?' && (flow || apart) then l.key
  else if c = ':' && (flow || apart) then l.value
  else if c = '*' then l.starting (named .alias)
  else if c = '&' then l.starting (named .anchor)
  else if c = '!' then l.starting Place.tag
  else if (c = '|' || c = '>') && !flow then l.block
  else if c = '\'' || c = '"' then l.starting (quoted c)
  else if startsPlain flow c rest then l.plain
  else blunder (.noToken c)

def finish : Nat → Lexer → Except Fault Lexer
  | 0, _ => blunder .noContent
  | fuel + 1, l => do
    let l ← (l.toNext (l.place.rest.length + 1)).dropStale
    let l := l.unwind l.place.column
    match l.place.rest with
    | [] => (l.unwind (-1)).giveUp
    | c :: rest => (← l.tokenAt c rest).finish fuel

end Lexer

def isAllowed (c : Char) : Bool :=
  let n := c.toNat
  c = '\t' || c = '\n' || c = '\r' || (0x20 ≤ n && n ≤ 0x7E) || n = 0x85 || (0xA0 ≤ n && n ≤ 0xFFFD)
    || 0x10000 ≤ n

namespace Token

def ofText (cs : List Char) : Except Fault (List Token) := do
  if !cs.all isAllowed then blunder .unprintable
  let l := Lexer.start cs
  let l := if cs.head? = some '\uFEFF' then l.advance 1 else l
  return (← l.finish (cs.length + 1)).tokens.toList

end Token

end Kitchen.Yaml

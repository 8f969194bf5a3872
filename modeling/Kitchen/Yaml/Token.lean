import Kitchen.Yaml.Fault
import Kitchen.Text.Utf8
import Kitchen.Yaml.Place

namespace Kitchen.Yaml

inductive Directive where
  | version (major : Nat)
  | handle (name meaning : String)
  | other
  deriving DecidableEq, Repr

inductive Token where
  | directive (d : Directive)
  | documentStart
  | documentEnd
  | blockList
  | blockMap
  | blockEnd
  | openList
  | closeList
  | openMap
  | closeMap
  | item
  | comma
  | key
  | value
  | alias (name : String)
  | anchor (name : String)
  | tag (handle : Option String) (rest : String)
  | scalar (text : String) (plain : Bool)
  | torn (t : Text.Torn)
  deriving DecidableEq, Repr

namespace Place

def isDigit (c : Char) : Bool := '0' ≤ c && c ≤ '9'

def isNameChar (c : Char) : Bool :=
  isDigit c || ('A' ≤ c && c ≤ 'Z') || ('a' ≤ c && c ≤ 'z') || c = '-' || c = '_'

def isHexDigit (c : Char) : Bool :=
  isDigit c || ('A' ≤ c && c ≤ 'F') || ('a' ≤ c && c ≤ 'f')

def hexNumber (cs : List Char) : Nat :=
  (Text.hexNumber? cs).getD 0

def natOf (cs : List Char) : Nat :=
  cs.foldl (fun n c => 10 * n + (c.toNat - 48)) 0

def name (p : Place) : Except Fault (String × Place) :=
  let (cs, p) := p.next.span isNameChar
  if cs.isEmpty then blunder .incompleteName
  else if endsWord p.head? || p.head?.any ("?:,]\x7d%@\x60".toList.contains ·) then
    .ok (String.ofList cs, p)
  else blunder .incompleteName

def tagHandle (p : Place) : Except Fault (String × Place) :=
  if p.head? ≠ some '!' then blunder .incompleteTag
  else if p.next.head? = some ' ' then .ok ("!", p.next)
  else
    let (cs, q) := p.next.span isNameChar
    if q.head? = some '!' then .ok (String.ofList ('!' :: cs ++ ['!']), q.next) else blunder .incompleteTag

def isUriChar (c : Char) : Bool :=
  isNameChar c || ";/?:@&=+$,_.!~*'()[]".toList.contains c

def uriBytes : List Char → Except Fault (List UInt8)
  | '%' :: a :: b :: rest =>
    if isHexDigit a && isHexDigit b then (.ofNat (hexNumber [a, b]) :: ·) <$> uriBytes rest
    else blunder .incompleteTag
  | '%' :: _ => blunder .incompleteTag
  | _ => .ok []

def uriFrom : Nat → Place → Except Fault (List Char × Place)
  | 0, _ => blunder .incompleteTag
  | fuel + 1, p => do
    let (cs, p) := p.span isUriChar
    if p.head? ≠ some '%' then return (cs, p)
    let bytes ← uriBytes p.rest
    match Text.Utf8.decode? bytes with
    | .error _ => blunder .incompleteTag
    | .ok escaped =>
      let (more, p) ← uriFrom fuel (p.skip (3 * bytes.length))
      return (cs ++ escaped ++ more, p)

def uri (p : Place) : Except Fault (String × Place) := do
  let (cs, q) ← p.uriFrom (p.rest.length + 1)
  if q.index = p.index then blunder .incompleteTag
  return (String.ofList cs, q)

def hasHandle : List Char → Bool
  | [] => false
  | c :: rest => c = '!' || (!endsField (some c) && hasHandle rest)

def tag (p : Place) : Except Fault (Token × Place) := do
  let (token, p) ←
    if p.next.head? = some '<' then do
      let (rest, p) ← (p.skip 2).uri
      if p.head? ≠ some '>' then blunder .incompleteTag
      pure (Token.tag none rest, p.next)
    else if endsWord p.next.head? then pure (Token.tag none "!", p.next)
    else do
      let (handle, p) ← if hasHandle p.next.rest then p.tagHandle else pure ("!", p.next)
      let (rest, p) ← p.uri
      pure (Token.tag (some handle) rest, p)
  if endsField p.head? then return (token, p) else blunder .incompleteTag

def version (p : Place) : Except Fault (Directive × Place) :=
  let (major, p) := p.skipSpaces.span isDigit
  let (minor, q) := p.next.span isDigit
  if major.isEmpty || p.head? ≠ some '.' || minor.isEmpty || !endsField q.head? then
    blunder .incompleteDirective
  else .ok (.version (natOf major), q)

def handle (p : Place) : Except Fault (Directive × Place) := do
  let (name, p) ← p.skipSpaces.tagHandle
  if p.head? ≠ some ' ' then blunder .incompleteDirective
  let (meaning, p) ← p.skipSpaces.uri
  if endsField p.head? then return (.handle name meaning, p) else blunder .incompleteDirective

def directive (p : Place) : Except Fault (Token × Place) := do
  let (name, p) := p.next.span isNameChar
  if name.isEmpty || !endsField p.head? then blunder .incompleteDirective
  let (d, p) ←
    if name = "YAML".toList then p.version
    else if name = "TAG".toList then p.handle
    else pure (.other, (p.span (!isBreak ·)).2)
  let p := p.skipSpaces.skipComment
  if endsLine p.head? then return (.directive d, ((p.lineBreak?).map (·.2)).getD p)
  else blunder .incompleteDirective

end Place

end Kitchen.Yaml

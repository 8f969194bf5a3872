namespace Kitchen.Yaml

def isBreak (c : Char) : Bool :=
  c = '\n' || c = '\r' || c = '\x85' || c = '\u2028' || c = '\u2029'

def isSpace (c : Char) : Bool := c = ' ' || c = '\t'

def endsLine (next : Option Char) : Bool := next.all isBreak

def endsWord (next : Option Char) : Bool := next.all fun c => isSpace c || isBreak c

def endsField (next : Option Char) : Bool := next.all fun c => c = ' ' || isBreak c

structure Place where
  rest : List Char
  index : Nat
  line : Nat
  column : Nat
  deriving Repr, Inhabited

namespace Place

def start (cs : List Char) : Place := ⟨cs, 0, 0, 0⟩

def head? (p : Place) : Option Char := p.rest.head?

def next (p : Place) : Place :=
  match p.rest with
  | [] => p
  | c :: rest =>
    if isBreak c && !(c = '\r' && rest.head? = some '\n') then ⟨rest, p.index + 1, p.line + 1, 0⟩
    else if c = '\uFEFF' then ⟨rest, p.index + 1, p.line, p.column⟩
    else ⟨rest, p.index + 1, p.line, p.column + 1⟩

def skip : Nat → Place → Place
  | 0, p => p
  | n + 1, p => skip n p.next

def span (f : Char → Bool) (p : Place) : List Char × Place :=
  let cs := p.rest.takeWhile f
  (cs, p.skip cs.length)

def skipSpaces (p : Place) : Place := (p.span (· = ' ')).2

def lineBreak? (p : Place) : Option (List Char × Place) :=
  match p.rest with
  | '\r' :: '\n' :: _ => some (['\n'], p.skip 2)
  | c :: _ =>
    if c = '\u2028' || c = '\u2029' then some ([c], p.next)
    else if isBreak c then some (['\n'], p.next)
    else none
  | [] => none

def atMark (p : Place) : Bool :=
  match p.rest with
  | a :: b :: c :: rest => (a = '-' || a = '.') && a = b && b = c && endsWord rest.head?
  | _ => false

def skipComment (p : Place) : Place :=
  if p.head? = some '#' then (p.span (!isBreak ·)).2 else p

end Place

end Kitchen.Yaml

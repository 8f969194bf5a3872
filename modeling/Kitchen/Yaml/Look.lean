import Kitchen.Text.Glyph
import Kitchen.Yaml.Tag

namespace Kitchen.Yaml

inductive Form where
  | plain
  | single
  | double
  deriving DecidableEq, Repr

namespace Look

def isBreak (c : Char) : Bool := c = '\n' || c = '\x85' || c = '\u2028' || c = '\u2029'

def isGap (c : Char) : Bool := c = ' ' || c = '\t' || c = '\r' || isBreak c

def isShowable (c : Char) : Bool :=
  let n := c.toNat
  c ≠ '\uFEFF' && (n = 0x85 || (0xA0 ≤ n && n ≤ 0xFFFD) || (0x10000 ≤ n && n < 0x10FFFF))

def isSpecial (wide : Bool) (c : Char) : Bool :=
  let n := c.toNat
  !(c = '\n' || (0x20 ≤ n && n ≤ 0x7E) || (wide && isShowable c))

def anyNeighbours (f : Char → Char → Bool) : List Char → Bool
  | a :: b :: rest => f a b || anyNeighbours f (b :: rest)
  | _ => false

def isMultiline (cs : List Char) : Bool := cs.any isBreak

def startsWithSign (cs : List Char) : Bool :=
  match cs with
  | [] => false
  | c :: rest =>
    "---".toList.isPrefixOf cs || "...".toList.isPrefixOf cs || "#,[]\x7b\x7d&*!|>'\"%@\x60".toList.contains c
      || ((c = '?' || c = ':' || c = '-') && rest.head?.all isGap)

def endsLikeKey : List Char → Bool
  | _ :: ':' :: rest => rest.head?.all isGap || endsLikeKey (':' :: rest)
  | _ :: c :: rest => endsLikeKey (c :: rest)
  | _ => false

def hasSigns (cs : List Char) : Bool :=
  startsWithSign cs || endsLikeKey cs || anyNeighbours (fun a b => isGap a && b = '#') cs

def allowsPlain (wide : Bool) (cs : List Char) : Bool :=
  let isEdge (c : Char) : Bool := c = ' ' || isBreak c
  !(cs.head?.any isEdge || cs.getLast?.any isEdge || isMultiline cs || cs.any (isSpecial wide) || hasSigns cs)

def allowsSingle (wide : Bool) (cs : List Char) : Bool :=
  !(cs.any (isSpecial wide)
    || anyNeighbours (fun a b => (isBreak a && b = ' ') || (a = ' ' && isBreak b)) cs)

def form (wide key : Bool) (isText : Bool) (cs : List Char) : Form :=
  let readable := !isText || Tag.ofPlain (String.ofList cs) = .str
  if readable && !(key && (cs.isEmpty || isMultiline cs)) && allowsPlain wide cs then .plain
  else if allowsSingle wide cs && !(key && isMultiline cs) then .single
  else .double

def letters : List (Char × Char) :=
  [('\x00', '0'), ('\x07', 'a'), ('\x08', 'b'), ('\t', 't'), ('\n', 'n'), ('\x0b', 'v'),
    ('\x0c', 'f'), ('\r', 'r'), ('\x1b', 'e'), ('"', '"'), ('\\', '\\'), ('\x85', 'N'),
    ('\xa0', '_'), ('\u2028', 'L'), ('\u2029', 'P')]

def code (n size : Nat) : List Char :=
  (Text.hexPadded n size).map Char.toUpper

def escape? (wide : Bool) (c : Char) : Option (List Char) :=
  let n := c.toNat
  let shown := c ≠ '"' && c ≠ '\\' && c ≠ '\u2028' && c ≠ '\u2029' && c ≠ '\uFEFF'
    && ((0x20 ≤ n && n ≤ 0x7E) || (wide && 0xA0 ≤ n && n ≤ 0xFFFD))
  if shown then none
  else match letters.lookup c with
    | some letter => some ['\\', letter]
    | none =>
      if n ≤ 0xFF then some ('\\' :: 'x' :: code n 2)
      else if n ≤ 0xFFFF then some ('\\' :: 'u' :: code n 4)
      else some ('\\' :: 'U' :: code n 8)

def escapeGlyph? (wide : Bool) : Text.Glyph → Option (List Char)
  | .char c => escape? wide c
  | .half h => some ('\\' :: 'u' :: code h.code 4)

end Look

end Kitchen.Yaml

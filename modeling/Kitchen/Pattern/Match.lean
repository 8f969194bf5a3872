import Kitchen.Pattern.Basic

namespace Kitchen.Pattern

open Text (Glyph)

structure Spot where
  place : Nat
  before : List Glyph
  after : List Glyph
  held : List (Option (List Glyph))
  deriving DecidableEq, Repr, Inhabited

namespace Spot

def start (text : List Glyph) (groups : Nat) : Spot :=
  ⟨0, [], text, List.replicate groups none⟩

def next? (s : Spot) : Option Spot :=
  match s.after with
  | [] => none
  | g :: rest => some ⟨s.place + 1, g :: s.before, rest, s.held⟩

def forward : Nat → Spot → Spot
  | 0, s => s
  | n + 1, s =>
    match s.next? with
    | none => s
    | some s => forward n s

def back? : Nat → Spot → Option Spot
  | 0, s => some s
  | n + 1, s =>
    match s.before with
    | [] => none
    | g :: rest => back? n ⟨s.place - 1, rest, g :: s.after, s.held⟩

def upTo (s e : Spot) : List Glyph :=
  s.after.take (e.place - s.place)

def hold (s : Spot) (n : Nat) (text : List Glyph) : Spot :=
  { s with held := s.held.set (n - 1) (some text) }

def held? (s : Spot) (n : Nat) : Option (List Glyph) :=
  (s.held[n - 1]?).join

def cleared (s : Spot) : Spot :=
  { s with held := s.held.map fun _ => none }

end Spot

def Anchor.holds (a : Anchor) (s : Spot) : Bool :=
  match a with
  | textStart => s.before.isEmpty
  | lineStart => s.before.isEmpty || s.before.head? == some (.char '\n')
  | textEndOrNewline => s.after.isEmpty || s.after == [.char '\n']
  | lineEnd => s.after.isEmpty || s.after.head? == some (.char '\n')
  | textEnd => s.after.isEmpty
  | boundary ascii negated =>
    let wordy (g : Option Glyph) : Bool := g.any fun g => Category.word.holds ascii g.code
    let crossed := wordy s.before.head? != wordy s.after.head?
    !(s.before.isEmpty && s.after.isEmpty) && crossed != negated

def takeText (fold : Fold) : List Glyph → Spot → Option Spot
  | [], s => some s
  | g :: gs, s =>
    match s.after with
    | [] => none
    | h :: rest =>
      if fold.lower h = fold.lower g then
        takeText fold gs ⟨s.place + 1, h :: s.before, rest, s.held⟩
      else none

abbrev Follow := Spot → Option Spot

def stretch (t : Test) : Option Nat → Spot → List Spot → List Glyph → List Spot
  | some 0, s, done, _ => s :: done
  | _, s, done, [] => s :: done
  | high, s, done, g :: rest =>
    if t.accepts g then
      stretch t (high.map (· - 1)) ⟨s.place + 1, g :: s.before, rest, s.held⟩ (s :: done) rest
    else s :: done

-- One more round of a greedy repetition after `count` of them, or what follows. A round that takes nothing is
-- the last one.
def greedily (body : Spot → Follow → Option Spot) (low : Nat) (high : Option Nat) (follow : Follow) :
    Nat → Nat → Option Nat → Spot → Option Spot
  | 0, _, _, _ => none
  | fuel + 1, count, last, s =>
    if count < low then
      body s (greedily body low high follow fuel (count + 1) last)
    else if high.all (count < ·) && last != some s.place then
      match body s (greedily body low high follow fuel (count + 1) (some s.place)) with
      | some e => some e
      | none => follow s
    else follow s

def lazily (body : Spot → Follow → Option Spot) (low : Nat) (high : Option Nat) (follow : Follow) :
    Nat → Nat → Option Nat → Spot → Option Spot
  | 0, _, _, _ => none
  | fuel + 1, count, last, s =>
    if count < low then
      body s (lazily body low high follow fuel (count + 1) last)
    else match follow s with
      | some e => some e
      | none =>
        if high.all (count < ·) && last != some s.place then
          body s (lazily body low high follow fuel (count + 1) (some s.place))
        else none

def possessively (body : Spot → Follow → Option Spot) (low : Nat) (high : Option Nat) :
    Nat → Nat → Spot → Option Spot
  | 0, _, _ => none
  | fuel + 1, count, s =>
    if count < low then
      match body s some with
      | none => none
      | some e => possessively body low high fuel (count + 1) e
    else if high.all (count < ·) then
      match body s some with
      | none => some s
      | some e => if e.place = s.place then some e else possessively body low high fuel (count + 1) e
    else some s

def rounds (low : Nat) (s : Spot) : Nat :=
  low + s.after.length + 3

def Node.run : Node → Spot → Follow → Option Spot
  | .empty, s, follow => follow s
  | .one t, s, follow =>
    match s.after with
    | [] => none
    | g :: rest =>
      if t.accepts g then follow ⟨s.place + 1, g :: s.before, rest, s.held⟩ else none
  | .anchor a, s, follow => if a.holds s then follow s else none
  | .cat a b, s, follow => a.run s fun s => b.run s follow
  | .alt a b, s, follow =>
    match a.run s follow with
    | some e => some e
    | none => b.run s follow
  | .capture n body, s, follow => body.run s fun e => follow (e.hold n (s.upTo e))
  | .same n fold _ _, s, follow =>
    match s.held? n with
    | none => none
    | some text =>
      match takeText fold text s with
      | none => none
      | some e => follow e
  | .repeated .greedy low high (.one t), s, follow =>
    ((stretch t high s [] s.after).takeWhile fun e => s.place + low ≤ e.place).findSome? follow
  | .repeated .greedy low high body, s, follow =>
    greedily body.run low high follow (rounds low s) 0 none s
  | .repeated .lazy low high body, s, follow =>
    lazily body.run low high follow (rounds low s) 0 none s
  | .repeated .possessive low high body, s, follow =>
    match possessively body.run low high (rounds low s) 0 s with
    | none => none
    | some e => follow e
  | .atomic body, s, follow =>
    match body.run s some with
    | none => none
    | some e => follow e
  | .ahead negated body, s, follow =>
    match body.run s some with
    | none => if negated then follow s else none
    | some e => if negated then none else follow { s with held := e.held }
  | .behind negated width body, s, follow =>
    match (s.back? width).bind fun b => body.run b some with
    | none => if negated then follow s else none
    | some e => if negated then none else follow { s with held := e.held }
  | .choose n yes no, s, follow =>
    match s.held? n with
    | none => no.run s follow
    | some _ => yes.run s follow


def matchAt (p : Pattern) (nonempty : Bool) (s : Spot) : Option Spot :=
  p.root.run s fun e => if nonempty && e.place == s.place then none else some e

-- The first match from a spot on: where it starts and ends. Only a match right at the spot may be required to
-- take something.
def findFrom (p : Pattern) (nonempty : Bool) (s : Spot) : Option (Spot × Spot) :=
  go nonempty s s.after
where
  go (nonempty : Bool) (s : Spot) : List Glyph → Option (Spot × Spot)
  | [] => (p.matchAt nonempty s).map (s, ·)
  | g :: rest =>
    match p.matchAt nonempty s with
    | some e => some (s, e)
    | none => go false ⟨s.place + 1, g :: s.before, rest, s.held⟩ rest

def search (p : Pattern) (text : List Glyph) : Option (List (Option (List Glyph))) :=
  (p.findFrom false (.start text p.groups)).map (·.2.held)

inductive Piece where
  | kept (text : List Glyph)
  | found
  deriving DecidableEq, Repr

-- A text cut at its matches, at most `limit` of them. A match may be empty, unless it stands right where the
-- one before it ended.
def pieces (p : Pattern) (limit : Option Nat) (text : List Glyph) : List Piece :=
  go (2 * text.length + 2) limit false (.start text p.groups)
where
  keep (text : List Glyph) (rest : List Piece) : List Piece :=
    if text.isEmpty then rest else .kept text :: rest
  go : Nat → Option Nat → Bool → Spot → List Piece
  | 0, _, _, s | _, some 0, _, s => keep s.after []
  | fuel + 1, limit, nonempty, s =>
    match p.findFrom nonempty s with
    | none => keep s.after []
    | some (b, e) =>
      keep (s.upTo b) (.found :: go fuel (limit.map (· - 1)) (e.place == b.place) e.cleared)

end Kitchen.Pattern

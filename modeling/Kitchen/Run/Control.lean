import Kitchen.Pattern.Match
import Kitchen.Reference
import Kitchen.Run.Machine
import Kitchen.Transform.Replace
import Kitchen.Transform.Text

namespace Kitchen.Run

open Text (Glyph)

abbrev Result := Option Halt × Machine

inductive Deed where
  | pass
  | stay
  | leap (label : Value) (place : Nat)
  | capture (texts : List (List Glyph))
  | finish

abbrev Decision := Except Failure Deed × Dish

structure Outlook where
  find : Value → Option Nat
  jumps : Nat

namespace Deed

def byText (d : Dish) (f : Value → Except Failure Deed) : Decision :=
  match d.get "string" with
  | .error e => (.error (.ofDish e), d)
  | .ok (v, d) => (f v, d)

def register (op : Operation) (d : Dish) : Decision :=
  match op.args with
  | extractor :: ignoreCase :: multiline :: _ =>
    match Pattern.ofValue (.ofFlags ignoreCase.truthy multiline.truthy) extractor with
    | .error f => (.error f, d)
    | .ok p =>
      byText d fun v => do
        let s ← Pattern.subject v
        match p.search s with
        | none | some [] => return pass
        | some held => return capture (held.map (·.getD []))
  | short => (.error (.misuse (.tooFew 3 short.length)), d)

def spent (jumps : Nat) (budget : Value) : Except Misuse Bool :=
  match budget.whole?, budget with
  | some n, _ => .ok (n ≤ jumps)
  | none, .float x =>
    let o := Number.compareInt jumps x
    .ok (o == some .gt || o == some .eq)
  | none, v => .error (.unordered v.kind)

def aim (o : Outlook) (label budget : Value) (d : Dish) (f : Nat → Decision) : Decision :=
  match spent o.jumps budget, o.find label with
  | .error u, _ => (.error (.misuse u), d)
  | .ok false, some place => f place
  | .ok _, _ => (.ok stay, d)

def jump (o : Outlook) (op : Operation) (d : Dish) : Decision :=
  match op.args with
  | label :: budget :: _ => aim o label budget d fun place => (.ok (leap label place), d)
  | short => (.error (.misuse (.tooFew 2 short.length)), d)

def conditionalJump (o : Outlook) (op : Operation) (d : Dish) : Decision :=
  match op.args with
  | pattern :: inverted :: label :: budget :: _ =>
    aim o label budget d fun place =>
      if pattern.same (.text "") then (.ok pass, d)
      else byText d fun v => do
        let p ← Pattern.ofValue (.ofFlags false false) pattern
        let s ← Pattern.subject v
        return if (p.search s).isSome != inverted.truthy then leap label place else pass
  | short => (.error (.misuse (.tooFew 4 short.length)), d)

def ofPrimitive (o : Outlook) (op : Operation) (d : Dish) : Primitive → Decision
  | .register => register op d
  | .jump => jump o op d
  | .conditionalJump => conditionalJump o op d
  | .finish => (.ok finish, d)
  | .fork | .merge | .label | .comment => (.ok pass, d)

end Deed

namespace Machine

def done (m : Machine) : Result := (none, m)

def fail (m : Machine) (f : Failure) : Result := (some (.failed f), m)

def misuse (m : Machine) (u : Misuse) : Result := m.fail (.misuse u)

def outlook (m : Machine) : Outlook := ⟨(labelPosition? · m.ops), m.frame.jumps⟩

def resolveArgs (c : Reference.Capture) (op : Operation) : Operation :=
  if op.disabled then op else { op with args := op.args.map c.resolveValue }

def resolveRest (m : Machine) (c : Reference.Capture) : Machine :=
  let k := follows m.ops.length m.frame.cursor
  { m with ops := m.ops.take k ++ (m.ops.drop k).map (resolveArgs c) }

def capture (m : Machine) (texts : List (List Glyph)) : Machine :=
  let base := m.frame.addressable
  let m := m.resolveRest ⟨base, texts⟩
  { m with
    frame := { m.frame with addressable := base + texts.length }
    ledger := m.ledger.publish ⟨m.frame.offset + m.frame.cursor, base, texts⟩ }

def takeJump (m : Machine) (label : Value) (place : Nat) : Machine :=
  let jumps := m.frame.jumps + 1
  let m := { m with frame := { m.frame with cursor := place, jumps } }
  m.note (.jumped label place jumps)

def enact (m : Machine) : Deed → Machine
  | .pass => m
  | .stay => m.note .stayed
  | .leap label place => m.takeJump label place
  | .capture texts => m.capture texts
  | .finish => m.moveTo m.ops.length

def settle (m : Machine) : Decision → Result
  | (.error f, dish) => { m with dish }.fail f
  | (.ok deed, dish) => ({ m with dish }.enact deed).done

def splitText {α : Type} [BEq α] (separator : List α) : Nat → List α → List (List α)
  | 0, cs => [cs]
  | _ + 1, [] => [[]]
  | fuel + 1, c :: rest =>
    if separator.isPrefixOf (c :: rest) then
      [] :: splitText separator fuel ((c :: rest).drop separator.length)
    else match splitText separator fuel rest with
      | [] => [[c]]
      | part :: parts => (c :: part) :: parts

def stretches {α : Type} (p : α → Bool) : List α → List (List α)
  | [] => []
  | x :: rest =>
    if p x then stretches p rest
    else match rest with
      | [] => [[x]]
      | y :: _ =>
        if p y then [x] :: stretches p rest
        else match stretches p rest with
          | [] => [[x]]
          | part :: parts => (x :: part) :: parts

def isBlankByte (b : UInt8) : Bool := b == 32 || (9 ≤ b && b ≤ 13)

def itemsOf (v : Value) : Except Misuse (List Value) :=
  match v with
  | .text s => .ok (s.toList.map fun c => .text (String.singleton c))
  | .torn t => .ok (t.glyphs.map fun g => .ofGlyphs [g])
  | .bytes bs => .ok (bs.map fun b => .int b.toNat)
  | .list xs | .tuple xs | .set xs => .ok xs
  | .map es => .ok (es.map (·.1))
  | v => .error (.notIterable v.kind)

def splitGlyphs (separator : Value) (gs : List Glyph) : Except Misuse (List Value) :=
  match separator.glyphs?, separator with
  | some ds, _ => .ok ((splitText ds gs.length gs).map .ofGlyphs)
  | none, .null => .ok ((stretches Glyph.isBlank gs).map .ofGlyphs)
  | none, d => .error (.separator d.kind)

def splitValue (separator v : Value) : Except Misuse (List Value) :=
  match v, separator with
  | .text s, d => splitGlyphs d (Glyph.ofText s)
  | .torn t, d => splitGlyphs d t.glyphs
  | .bytes bs, .null => .ok ((stretches isBlankByte bs).map .bytes)
  | .bytes _, d => .error (.needsBytes d.kind)
  | v, _ => .error (.lacks v.kind "split")

def tranches (separator v : Value) : Except Misuse (List Value) :=
  if !v.truthy then .ok []
  else if separator.same (.text "") then itemsOf v
  else splitValue separator v

def outputText : Value → List Glyph
  | .bytes bs => Glyph.ofChars (Text.Utf8.decode bs)
  | v => v.glyphs

structure Harvest where
  output : List Glyph
  progress : Int
  ops : List Operation
  ledger : Ledger

structure Split where
  op : Operation
  body : List Operation
  frame : Frame
  delimiter : List Glyph
  ignoring : Bool
  parts : List Value

namespace Split

def restore (s : Split) (ops : List Operation) : List Operation :=
  s.body.zipWith (fun first op => { op with args := first.args }) ops

def opening (s : Split) (ledger : Ledger) : Harvest :=
  ⟨[], 0, s.body, ledger⟩

def machine (s : Split) (dish : Dish) (ops : List Operation) (ledger : Ledger) : Machine :=
  ⟨s.restore ops, dish, s.frame, ledger, none⟩

def gather (s : Split) (h : Harvest) (progress : Int) (m : Machine) (ledger : Ledger) :
    Option Halt × Harvest :=
  match m.dish.get s.op.output with
  | .error e => (some (.failed (.ofDish e)), { h with ledger })
  | .ok (v, _) => (none, ⟨h.output ++ outputText v ++ s.delimiter, progress, m.ops, ledger⟩)

def reach (s : Split) : Stop → Except Halt Int
  | .at p => .ok p
  | .broken b => if s.ignoring then .ok (b.place + 1) else .error (.broken b)
  | .overLimit l => .error (.overLimit l)
  | .outOfRange => .error (.failed (.misuse .outOfRange))
  | .unfinished => .error .unfinished

def remark (number : Nat) (stop : Stop) (ledger : Ledger) : Ledger :=
  match stop with
  | .broken b => ledger.note (.ignored number b)
  | _ => ledger

def serve (run : Machine → Stop × Machine) (s : Split) (number : Nat) (v : Value)
    (h : Harvest) : Option Halt × Harvest :=
  let ledger := h.ledger.note (.tranche number s.parts.length)
  match Dish.make v s.op.input with
  | .error e => (some (.failed (.ofDish e)), { h with ledger })
  | .ok dish =>
    let (stop, m) := run (s.machine dish h.ops ledger)
    match s.reach stop with
    | .error halt => (some halt, { h with ledger := m.ledger })
    | .ok progress => s.gather h progress m (remark number stop m.ledger)

def serveAll (run : Machine → Stop × Machine) (s : Split) :
    Nat → List Value → Harvest → Option Halt × Harvest
  | _, [], h => (none, h)
  | number, v :: rest, h =>
    match s.serve run number v h with
    | (none, h) => s.serveAll run (number + 1) rest h
    | halted => halted

end Split

def forkBody (m : Machine) : List Operation :=
  m.rest.takeWhile fun op => !op.does .merge

def split (m : Machine) (op : Operation) : Except Failure Split × Dish :=
  match op.args with
  | separator :: delimiter :: ignoring :: _ =>
    match m.dish.get op.input with
    | .error e => (.error (.ofDish e), m.dish)
    | .ok (v, dish) =>
      match tranches separator v with
      | .error u => (.error (.misuse u), dish)
      | .ok parts =>
        (.ok ⟨op, m.forkBody, m.frame.inner, delimiter.glyphs, ignoring.truthy, parts⟩, dish)
  | short => (.error (.misuse (.tooFew 3 short.length)), m.dish)

def join (m : Machine) (op : Operation) (h : Harvest) : Result :=
  match Dish.set (.ofGlyphs h.output) op.output with
  | .error e => m.fail (.ofDish e)
  | .ok dish => ({ m with dish }.moveTo (m.frame.cursor + h.progress)).done

def fork (run : Machine → Stop × Machine) (m : Machine) (op : Operation) : Result :=
  match m.split op with
  | (.error f, dish) => { m with dish }.fail f
  | (.ok s, dish) =>
    match s.serveAll run 1 s.parts (s.opening m.ledger) with
    | (some halt, h) => (some halt, { m with dish, ledger := h.ledger })
    | (none, h) => { m with dish, ledger := h.ledger }.join op h

def carryOut (run : Machine → Stop × Machine) (p : Primitive) (m : Machine) : Result :=
  match p, m.current? with
  | .finish, _ => (m.enact .finish).done
  | .merge, _ | .label, _ | .comment, _ => (m.enact .pass).done
  | _, none => m.misuse .outOfRange
  | .fork, some op => m.fork run op
  | p, some op => m.settle (Deed.ofPrimitive m.outlook op m.dish p)

def steer (run : Machine → Stop × Machine) (m : Machine) : Result :=
  match m.current? with
  | none => m.misuse .outOfRange
  | some op =>
    match op.primitive? with
    | none => m.misuse (.notControl op.name)
    | some p => m.carryOut run p

end Machine

end Kitchen.Run

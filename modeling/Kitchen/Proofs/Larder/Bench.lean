import Kitchen.Proofs.Larder.Copies
import Kitchen.Proofs.Larder.Filling
import Kitchen.Proofs.Run.Round
import Kitchen.Proofs.Run.Serving

namespace Kitchen.Run

structure Bench where
  refs : List Nat
  larder : Larder
  dish : Dish
  frame : Frame
  ledger : Ledger
  last : Option Nat

namespace Bench

def machine (b : Bench) : Machine :=
  ⟨b.refs.map b.larder.operation, b.dish, b.frame, b.ledger, b.last⟩

def follow (b : Bench) (m : Machine) : Bench :=
  { b with dish := m.dish, frame := m.frame, ledger := m.ledger, last := m.last }

def note (b : Bench) (e : Event) : Bench :=
  b.follow (b.machine.note e)

def enact (b : Bench) : Deed → Bench
  | .capture texts =>
    let later := b.refs.drop (follows b.refs.length b.frame.cursor)
    { b.follow (b.machine.enact (.capture texts)) with
      larder := b.larder.fillAll ⟨b.frame.addressable, texts⟩ later }
  | deed => b.follow (b.machine.enact deed)

def body (b : Bench) : List Nat :=
  (b.refs.drop (follows b.refs.length b.frame.cursor)).takeWhile fun r =>
    !(b.larder.operation r).does .merge

-- Runs one tranche on copies of the operations, with the arguments that they had first.
def serve (run : Bench → Stop × Bench) (s : Machine.Split) (refs : List Nat)
    (firsts : List (List Larder.Arg)) (number : Nat) (v : Value) (h : Machine.Harvest) (l : Larder) :
    (Option Halt × Machine.Harvest) × Larder :=
  let ledger := h.ledger.note (.tranche number s.parts.length)
  let l := l.restore refs firsts
  match Dish.make v s.op.input with
  | .error e => ((some (.failed (.ofDish e)), { h with ledger }), l)
  | .ok dish =>
    let (stop, b) := run ⟨refs, l, dish, s.frame, ledger, none⟩
    match s.reach stop with
    | .error halt => ((some halt, { h with ledger := b.ledger }), b.larder)
    | .ok progress => (s.gather h progress b.machine (Machine.Split.remark number stop b.ledger), b.larder)

def serveAll (run : Bench → Stop × Bench) (s : Machine.Split) (refs : List Nat)
    (firsts : List (List Larder.Arg)) :
    Nat → List Value → Machine.Harvest → Larder → (Option Halt × Machine.Harvest) × Larder
  | _, [], h, l => ((none, h), l)
  | number, v :: rest, h, l =>
    match serve run s refs firsts number v h l with
    | ((none, h), l) => serveAll run s refs firsts (number + 1) rest h l
    | halted => halted

def fork (run : Bench → Stop × Bench) (b : Bench) (op : Operation) : Option Halt × Bench :=
  match b.machine.split op with
  | (.error f, dish) => (some (.failed f), { b with dish })
  | (.ok s, dish) =>
    let (refs, l) := b.larder.cloneAll b.body
    let (firsts, l) := l.copyAll refs
    match serveAll run s refs firsts 1 s.parts (s.opening b.ledger) l with
    | ((some halt, h), larder) => (some halt, { b with dish, ledger := h.ledger, larder })
    | ((none, h), larder) =>
      let b := { b with dish, ledger := h.ledger, larder }
      let (halt, m) := b.machine.join op h
      (halt, b.follow m)

def stand (b : Bench) (i : Int) (dish : Dish) : Bench :=
  { b with dish, frame := { b.frame with cursor := i } }

def dispatch (run : Bench → Stop × Bench) (i : Int) (op : Operation) (b : Bench) :
    Except Halt Int × Bench :=
  match b.dish.get op.input with
  | .error e => (.error (.failed (.ofDish e)), b)
  | .ok (v, dish) =>
    match op.primitive? with
    | none =>
      match op.produce v with
      | .error f => (.error (.failed f), { b with dish })
      | .ok dish => (.ok i, { b with dish })
    | some .fork =>
      match (b.stand i dish).fork run op with
      | (none, b) => (.ok b.frame.cursor, b)
      | (some halt, b) => (.error halt, b)
    | some p =>
      match Deed.ofPrimitive b.machine.outlook op dish p with
      | (.error f, dish) => (.error (.failed f), b.stand i dish)
      | (.ok deed, dish) =>
        let b := (b.stand i dish).enact deed
        (.ok b.frame.cursor, b)

inductive Turn where
  | ended (stop : Stop) (b : Bench)
  | onward (i : Int) (b : Bench)

def conclude (b : Bench) (i : Int) (op : Operation) (halt : Halt) : Turn :=
  match b.machine.conclude i op halt with
  | .ended stop m => .ended stop (b.follow m)
  | .onward i m => .onward i (b.follow m)

def round (run : Bench → Stop × Bench) (start i : Int) (b : Bench) : Turn :=
  if (b.refs.length : Int) ≤ i then .ended (.at b.refs.length) (b.note .completed)
  else match b.machine.opAt? i with
    | none => .ended .outOfRange b
    | some op =>
      if op.disabled then .onward (i + 1) (b.note (.skipped i op))
      else if op.pauses ∧ i ≠ start then .ended (.at i) (b.note (.paused i))
      else
        match b.ledger.count.exceeded? with
        | some l => .ended (.overLimit l) { b with ledger := b.ledger.count }
        | none =>
          match (b.follow (b.machine.enter i op)).dispatch run i op with
          | (.ok next, b') => .onward (next + 1) { b' with last := place? b.refs.length i }
          | (.error halt, b') => b'.conclude i op halt

def drive (run : Bench → Stop × Bench) (start : Int) : Nat → Int → Bench → Stop × Bench
  | 0, _, b => (.unfinished, b)
  | fuel + 1, i, b =>
    match b.round run start i with
    | .ended stop b => (stop, b)
    | .onward i b => drive run start fuel i b

def execute : Nat → Int → Bench → Stop × Bench
  | 0, _, b => (.unfinished, b)
  | depth + 1, start, b =>
    (b.note (.started b.refs.length start)).drive (execute depth 0) start
      (rounds b.machine.ops b.ledger.limit) start

def run (start : Int) (b : Bench) : Stop × Bench :=
  b.execute (b.refs.length + 2) start

variable {run : Bench → Stop × Bench} {run' : Machine → Stop × Machine} {b b' b'' : Bench} {m m' : Machine}
  {start i : Int} {op : Operation}

def Tidy (b : Bench) : Prop :=
  b.larder.Tidy b.refs

-- A bench that came of another one. It shows a machine, and nothing was changed but the operations of the
-- bench.
structure Becomes (b b' : Bench) (m : Machine) : Prop where
  refs : b'.refs = b.refs
  machine : b'.machine = m
  spares : b.larder.Spares b.refs b'.larder

theorem Becomes.tidy (becomes : Becomes b b' m) (tidy : b.Tidy) : b'.Tidy := by
  unfold Tidy
  rw [becomes.refs]
  exact Larder.Tidy.spared tidy becomes.spares

theorem Becomes.trans (h : Becomes b b' m) (h' : Becomes b' b'' m') : Becomes b b'' m' where
  refs := h'.refs.trans h.refs
  machine := h'.machine
  spares := by
    have spares := h'.spares
    rw [h.refs] at spares
    exact h.spares.trans spares

theorem Becomes.follow (b : Bench) (same : m.ops = b.machine.ops) : Becomes b (b.follow m) m where
  refs := rfl
  machine := by
    obtain ⟨ops, dish, frame, ledger, last⟩ := m
    obtain rfl : ops = b.machine.ops := same
    rfl
  spares := .refl _ _

theorem Becomes.refl (b : Bench) : Becomes b b b.machine :=
  ⟨rfl, rfl, .refl _ _⟩

theorem ops_length (b : Bench) : b.machine.ops.length = b.refs.length :=
  List.length_map _

def Refines (run : Bench → Stop × Bench) (run' : Machine → Stop × Machine) : Prop :=
  ∀ b : Bench, b.Tidy → (run b).1 = (run' b.machine).1 ∧ Becomes b (run b).2 (run' b.machine).2

/-- What is filled in on the bench is what the machine fills in. -/
theorem enact_becomes (tidy : b.Tidy) (deed : Deed) : Becomes b (b.enact deed) (b.machine.enact deed) := by
  cases deed with
  | capture texts =>
    let capture : Reference.Capture := ⟨b.frame.addressable, texts⟩
    let k := follows b.refs.length b.frame.cursor
    have later : (b.refs.drop k).Sublist b.refs := List.drop_sublist _ _
    obtain ⟨spares, filled⟩ := Larder.fillAll_resolves capture b.larder (tidy.sublist later)
    have refs : (b.refs.take k ++ b.refs.drop k).Nodup := by
      rw [List.take_append_drop]
      exact tidy.nodup
    obtain ⟨-, -, apart⟩ := List.nodup_append'.mp refs
    -- The operations up to the Register share nothing with those that come after it.
    have before : (b.refs.take k).map (b.larder.fillAll capture (b.refs.drop k)).operation =
        (b.refs.take k).map b.larder.operation := by
      apply List.map_congr_left
      intro r mem
      have among := List.mem_of_mem_take mem
      refine spares.operation (tidy.slips r among) (fun mem' => apart mem mem') (tidy.maps r among) ?_
      intro r' mem'
      exact tidy.apart r among r' (later.subset mem') fun same => apart mem (same ▸ mem')
    have whole : b.refs.map (b.larder.fillAll capture (b.refs.drop k)).operation =
        b.machine.ops.take k ++ (b.machine.ops.drop k).map (Machine.resolveArgs capture) :=
      calc b.refs.map (b.larder.fillAll capture (b.refs.drop k)).operation
        _ = (b.refs.take k ++ b.refs.drop k).map (b.larder.fillAll capture (b.refs.drop k)).operation := by
            rw [List.take_append_drop]
        _ = (b.refs.take k).map b.larder.operation ++
              ((b.refs.drop k).map b.larder.operation).map (Machine.resolveArgs capture) := by
            rw [List.map_append, before, filled]
        _ = b.machine.ops.take k ++ (b.machine.ops.drop k).map (Machine.resolveArgs capture) := by
            rw [List.map_take, List.map_drop]
            rfl
    refine ⟨rfl, ?_, spares.mono later.subset tidy.slips⟩
    have size : follows b.machine.ops.length b.machine.frame.cursor = k := by
      rw [ops_length]
      rfl
    simp only [machine, enact, follow, Machine.enact, Machine.capture, Machine.resolveRest] at whole size ⊢
    rw [size]
    congr 1
  | _ => exact .follow b rfl

variable {s : Machine.Split} {refs : List Nat} {firsts : List (List Larder.Arg)} {base l : Larder}
  {h : Machine.Harvest}

/-- A tranche that runs on restored copies brings what it brings to a machine of its own. -/
theorem serve_refines (refines : Refines run run') (stocked : base.Stocked refs firsts s.body l)
    (shown : h.ops = refs.map l.operation) (number : Nat) (v : Value) :
    (serve run s refs firsts number v h l).1 = s.serve run' number v h ∧
      base.Stocked refs firsts s.body (serve run s refs firsts number v h l).2 ∧
      ((s.serve run' number v h).1 = none →
        (s.serve run' number v h).2.ops =
          refs.map (serve run s refs firsts number v h l).2.operation) := by
  obtain ⟨tidy, restored, onward⟩ := stocked.restore
  unfold serve Machine.Split.serve
  cases Dish.make v s.op.input with
  | error e => exact ⟨rfl, onward _ (.refl _ _), fun none => by cases none⟩
  | ok dish =>
    let ledger := h.ledger.note (.tranche number s.parts.length)
    let child : Bench := ⟨refs, l.restore refs firsts, dish, s.frame, ledger, none⟩
    have begun : child.machine = s.machine dish h.ops ledger := by
      rw [shown]
      unfold Machine.Split.machine Machine.Split.restore
      rw [restored]
      rfl
    obtain ⟨stop, becomes⟩ := refines child tidy
    rw [begun] at stop becomes
    dsimp only
    generalize run child = ran at stop becomes
    obtain ⟨stop', b⟩ := ran
    generalize run' (s.machine dish h.ops ledger) = ran' at stop becomes
    obtain ⟨stop'', m⟩ := ran'
    obtain rfl : stop' = stop'' := stop
    obtain rfl : b.machine = m := becomes.machine
    have left : b.refs = refs := becomes.refs
    have stocked' : base.Stocked refs firsts s.body b.larder := onward _ becomes.spares
    dsimp only
    cases s.reach stop' with
    | error halt => exact ⟨rfl, stocked', fun none => by cases none⟩
    | ok progress =>
      refine ⟨rfl, stocked', ?_⟩
      unfold Machine.Split.gather
      cases b.machine.dish.get s.op.output with
      | error e => exact fun none => by cases none
      | ok w =>
        intro _
        rw [← left]
        rfl

theorem serveAll_refines (refines : Refines run run') (stocked : base.Stocked refs firsts s.body l)
    (shown : h.ops = refs.map l.operation) (number : Nat) (vs : List Value) :
    (serveAll run s refs firsts number vs h l).1 = s.serveAll run' number vs h ∧
      base.Stocked refs firsts s.body (serveAll run s refs firsts number vs h l).2 := by
  induction vs generalizing number h l with
  | nil => exact ⟨rfl, stocked⟩
  | cons v vs ih =>
    obtain ⟨same, stocked', further⟩ := serve_refines refines stocked shown number v
    unfold serveAll Machine.Split.serveAll
    rw [← same] at further ⊢
    generalize serve run s refs firsts number v h l = served at stocked' further
    obtain ⟨⟨halt, h'⟩, l'⟩ := served
    cases halt with
    | none => exact ih stocked' (further rfl) (number + 1)
    | some halt => exact ⟨rfl, stocked'⟩

theorem body_operations (b : Bench) : b.body.map b.larder.operation = b.machine.forkBody := by
  unfold body Machine.forkBody Machine.rest
  rw [ops_length]
  change _ = ((b.refs.map b.larder.operation).drop (follows b.refs.length b.frame.cursor)).takeWhile _
  rw [← List.map_drop, List.takeWhile_map]
  rfl

theorem join_ops (m : Machine) (op : Operation) (h : Machine.Harvest) : (m.join op h).2.ops = m.ops := by
  unfold Machine.join
  cases Dish.set (.ofGlyphs h.output) op.output <;> rfl

/-- A Fork on the bench does what one of its machine does. Nothing of the larder is changed by it but what
was made since. -/
theorem fork_becomes (refines : Refines run run') (tidy : b.Tidy) (op : Operation) :
    (b.fork run op).1 = (b.machine.fork run' op).1 ∧ Becomes b (b.fork run op).2 (b.machine.fork run' op).2 := by
  unfold fork Machine.fork
  cases cut : b.machine.split op with
  | mk r d =>
    cases r with
    | error f => exact ⟨rfl, rfl, rfl, .refl _ _⟩
    | ok s =>
      obtain ⟨fresh, copied⟩ := b.larder.cloneAll_fresh b.body
      have stocked := fresh.stocked
      have body : s.body = b.body.map b.larder.operation := by
        obtain ⟨separator, delimiter, ignoring, more, v, parts, -, -, -, rfl⟩ := Machine.split_ok cut
        exact (body_operations b).symm
      rw [copied, ← body] at stocked
      have shown : (s.opening b.ledger).ops = (b.larder.cloneAll b.body).1.map
          ((b.larder.cloneAll b.body).2.copyAll (b.larder.cloneAll b.body).1).2.operation := by
        have kept := fresh.tidy.operations (Larder.copyAll_keeps _ fresh.tidy).1
        rw [kept, copied]
        exact body
      obtain ⟨same, stocked'⟩ := serveAll_refines refines stocked shown 1 s.parts
      have opened : s.opening b.machine.ledger = s.opening b.ledger := rfl
      dsimp only
      rw [opened, ← same]
      generalize serveAll run s _ _ 1 s.parts (s.opening b.ledger) _ = served at stocked'
      obtain ⟨⟨halt, h⟩, l⟩ := served
      -- All that the tranches have changed was made since, so the bench shows the same operations.
      have spares := stocked'.spares
      have left : Becomes b { b with dish := d, ledger := h.ledger, larder := l }
          { b.machine with dish := d, ledger := h.ledger } := by
        refine ⟨rfl, ?_, spares.mono (List.nil_subset _) tidy.slips⟩
        have operations := Larder.Tidy.operations tidy spares
        unfold machine
        rw [operations]
      cases halt with
      | some halt => exact ⟨rfl, left⟩
      | none =>
        dsimp only
        rw [left.machine]
        refine ⟨rfl, left.trans (.follow _ ?_)⟩
        rw [join_ops, left.machine]

theorem dispatch_fork {v : Value} {d : Dish} (get : b.dish.get op.input = .ok (v, d))
    (fork : op.primitive? = some .fork) :
    b.dispatch run i op =
      match (b.stand i d).fork run op with
      | (none, b) => (.ok b.frame.cursor, b)
      | (some halt, b) => (.error halt, b) := by
  unfold dispatch
  rw [get, fork]

theorem dispatch_other {p : Primitive} {v : Value} {d : Dish} (get : b.dish.get op.input = .ok (v, d))
    (primitive : op.primitive? = some p) (other : p ≠ .fork) :
    b.dispatch run i op =
      match Deed.ofPrimitive b.machine.outlook op d p with
      | (.error f, dish) => (.error (.failed f), b.stand i dish)
      | (.ok deed, dish) =>
        let b := (b.stand i dish).enact deed
        (.ok b.frame.cursor, b) := by
  unfold dispatch
  rw [get, primitive]
  cases p <;> first | rfl | exact absurd rfl other

theorem stand_becomes (b : Bench) (i : Int) (d : Dish) : Becomes b (b.stand i d) (b.stand i d).machine :=
  ⟨rfl, rfl, .refl _ _⟩

/-- An operation that is carried out on the bench comes to what it comes to on its machine. -/
theorem dispatch_becomes (refines : Refines run run') (tidy : b.Tidy) (here : b.machine.opAt? i = some op) :
    (b.dispatch run i op).1 = (b.machine.dispatch run' i op).1 ∧
      Becomes b (b.dispatch run i op).2 (b.machine.dispatch run' i op).2 := by
  have dish : b.machine.dish = b.dish := rfl
  unfold Machine.dispatch
  rw [dish]
  cases get : b.dish.get op.input with
  | error e =>
    unfold dispatch
    rw [get]
    exact ⟨rfl, .refl b⟩
  | ok vd =>
    obtain ⟨v, d⟩ := vd
    have current : ∀ d', (b.stand i d').machine.current? = some op := fun _ => here
    cases primitive : op.primitive? with
    | none =>
      unfold dispatch
      rw [get, primitive]
      dsimp only
      cases op.produce v with
      | error f => exact ⟨rfl, rfl, rfl, .refl _ _⟩
      | ok d' => exact ⟨rfl, rfl, rfl, .refl _ _⟩
    | some p =>
      have steered : ({ b.machine with dish := d }.moveTo i).steer run' =
          (b.stand i d).machine.carryOut run' p := Machine.steer_primitive (current d) primitive
      dsimp only
      rw [if_pos Option.isSome_some, steered]
      by_cases fork : p = .fork
      · subst fork
        obtain ⟨same, becomes⟩ := fork_becomes refines ((b.stand_becomes i d).tidy tidy) op
        have forked := (b.stand_becomes i d).trans becomes
        rw [Machine.carryOut_fork (current d), dispatch_fork get primitive]
        generalize (b.stand i d).fork run op = left at same forked
        generalize (b.stand i d).machine.fork run' op = left' at same forked
        obtain ⟨halt, b'⟩ := left
        obtain ⟨halt', m'⟩ := left'
        obtain rfl : halt = halt' := same
        obtain rfl : b'.machine = m' := forked.machine
        cases halt with
        | none => exact ⟨rfl, forked⟩
        | some halt => exact ⟨rfl, forked⟩
      · rw [Machine.carryOut_other (current d) fork, dispatch_other get primitive fork]
        have looked : Deed.ofPrimitive (b.stand i d).machine.outlook op (b.stand i d).machine.dish p =
            Deed.ofPrimitive b.machine.outlook op d p := rfl
        rw [looked]
        generalize Deed.ofPrimitive b.machine.outlook op d p = decided
        obtain ⟨r, d'⟩ := decided
        cases r with
        | error f => exact ⟨rfl, rfl, rfl, .refl _ _⟩
        | ok deed =>
          have becomes := enact_becomes ((b.stand_becomes i d').tidy tidy) deed
          have enacted := (b.stand_becomes i d').trans becomes
          have turned : ({ (b.stand i d).machine with dish := d' } : Machine) = (b.stand i d').machine := rfl
          have cursor : ((b.stand i d').enact deed).frame.cursor =
              ((b.stand i d').machine.enact deed).frame.cursor := by
            rw [← enacted.machine]
            rfl
          unfold Machine.settle
          dsimp only
          rw [turned]
          exact ⟨congrArg Except.ok cursor, enacted⟩

-- Two rounds, on a bench and of its machine, end in the same way or go on from the same place.
inductive Turn.Shows (b : Bench) : Turn → Run.Turn → Prop where
  | ended {stop : Stop} {b' : Bench} {m : Machine} (becomes : Becomes b b' m) :
      Shows b (.ended stop b') (.ended stop m)
  | onward {i : Int} {b' : Bench} {m : Machine} (becomes : Becomes b b' m) :
      Shows b (.onward i b') (.onward i m)

theorem conclude_shows (becomes : Becomes b b' m) (i : Int) (op : Operation) (halt : Halt) :
    Turn.Shows b (b'.conclude i op halt) (m.conclude i op halt) := by
  obtain rfl : b'.machine = m := becomes.machine
  obtain ⟨stop, d, concluded⟩ := Machine.conclude_ended b'.machine i op halt
  unfold conclude
  rw [concluded]
  exact .ended (becomes.trans (.follow b' rfl))

theorem round_shows (refines : Refines run run') (tidy : b.Tidy) (start i : Int) :
    Turn.Shows b (b.round run start i) (b.machine.round run' start i) := by
  have noted : ∀ e, Becomes b (b.note e) (b.machine.note e) := fun e => .follow b rfl
  unfold round Machine.round
  rw [ops_length]
  by_cases beyond : (b.refs.length : Int) ≤ i
  · rw [if_pos beyond, if_pos beyond]
    exact .ended (noted _)
  rw [if_neg beyond, if_neg beyond]
  cases here : b.machine.opAt? i with
  | none => exact .ended (.refl b)
  | some op =>
    dsimp only
    by_cases disabled : op.disabled
    · rw [if_pos disabled, if_pos disabled]
      exact .onward (noted _)
    rw [if_neg disabled, if_neg disabled]
    by_cases pauses : op.pauses ∧ i ≠ start
    · rw [if_pos pauses, if_pos pauses]
      exact .ended (noted _)
    rw [if_neg pauses, if_neg pauses]
    have counted : b.machine.ledger.count.exceeded? = b.ledger.count.exceeded? := rfl
    rw [counted]
    cases b.ledger.count.exceeded? with
    | some l => exact .ended ⟨rfl, rfl, .refl _ _⟩
    | none =>
      have entered : Becomes b (b.follow (b.machine.enter i op)) (b.machine.enter i op) := .follow b rfl
      have here' : (b.follow (b.machine.enter i op)).machine.opAt? i = some op := here
      obtain ⟨same, becomes⟩ := dispatch_becomes refines (entered.tidy tidy) here'
      have dispatched := entered.trans becomes
      have shown : (b.follow (b.machine.enter i op)).machine = b.machine.enter i op := entered.machine
      rw [shown] at same dispatched
      dsimp only
      generalize (b.follow (b.machine.enter i op)).dispatch run i op = left at same dispatched
      generalize (b.machine.enter i op).dispatch run' i op = left' at same dispatched
      obtain ⟨next, b'⟩ := left
      obtain ⟨next', m'⟩ := left'
      obtain rfl : next = next' := same
      cases next with
      | ok next =>
        obtain rfl : b'.machine = m' := dispatched.machine
        exact .onward ⟨dispatched.refs, rfl, dispatched.spares⟩
      | error halt => exact conclude_shows dispatched i op halt

theorem drive_refines (refines : Refines run run') (tidy : b.Tidy) (start : Int) (fuel : Nat) (i : Int) :
    (b.drive run start fuel i).1 = (b.machine.drive run' start fuel i).1 ∧
      Becomes b (b.drive run start fuel i).2 (b.machine.drive run' start fuel i).2 := by
  induction fuel generalizing b i with
  | zero => exact ⟨rfl, .refl b⟩
  | succ fuel ih =>
    have shows := round_shows refines tidy start i
    unfold drive Machine.drive
    generalize b.round run start i = turn at shows
    generalize b.machine.round run' start i = turn' at shows
    cases shows with
    | ended becomes => exact ⟨rfl, becomes⟩
    | @onward j b' m becomes =>
      obtain rfl : b'.machine = m := becomes.machine
      obtain ⟨stop, further⟩ := ih (becomes.tidy tidy) j
      exact ⟨stop, becomes.trans further⟩

/-- However deep Forks are nested, a machine shows what happens on a bench whose operations lie apart. -/
theorem execute_refines (depth : Nat) (start : Int) (tidy : b.Tidy) :
    (b.execute depth start).1 = (b.machine.execute depth start).1 ∧
      Becomes b (b.execute depth start).2 (b.machine.execute depth start).2 := by
  induction depth generalizing b start with
  | zero => exact ⟨rfl, .refl b⟩
  | succ depth ih =>
    have refines : Refines (execute depth 0) (Machine.execute depth 0) := fun _ tidy => ih 0 tidy
    have begun : Becomes b (b.note (.started b.refs.length start))
        (b.machine.note (.started b.refs.length start)) := .follow b rfl
    obtain ⟨stop, becomes⟩ := drive_refines refines (begun.tidy tidy) start
      (rounds b.machine.ops b.ledger.limit) start
    have further := begun.trans becomes
    rw [begun.machine] at stop further
    unfold execute Machine.execute
    rw [ops_length]
    exact ⟨stop, further⟩

theorem run_refines (start : Int) (tidy : b.Tidy) :
    (b.run start).1 = (b.machine.run start).1 ∧ Becomes b (b.run start).2 (b.machine.run start).2 := by
  unfold run Machine.run
  rw [ops_length]
  exact execute_refines _ start tidy

end Bench

end Kitchen.Run

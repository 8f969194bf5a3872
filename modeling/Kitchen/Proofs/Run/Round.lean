import Kitchen.Proofs.Dish.Turning
import Kitchen.Run.Execute

namespace Kitchen.Run.Machine

variable {run : Machine → Stop × Machine} {start i : Int} {op : Operation} {m : Machine}

-- What an operation other than a Fork does at a place: where the run is then, or why it failed, and the machine
-- afterwards. A Fork whose input cannot be read fails in the same way.
inductive Acts (i : Int) (op : Operation) (m : Machine) : Except Failure Int → Machine → Prop where
  | unreadable {e : Dish.Fault} (get : m.dish.get op.input = .error e) :
      Acts i op m (.error (.ofDish e)) m
  | refused {v : Value} {d : Dish} {f : Failure} (ordinary : op.primitive? = none)
      (get : m.dish.get op.input = .ok (v, d)) (made : op.produce v = .error f) :
      Acts i op m (.error f) { m with dish := d }
  | produced {v : Value} {d d' : Dish} (ordinary : op.primitive? = none)
      (get : m.dish.get op.input = .ok (v, d)) (made : op.produce v = .ok d') :
      Acts i op m (.ok i) { m with dish := d' }
  | declined {p : Primitive} {v : Value} {d d' : Dish} {f : Failure}
      (primitive : op.primitive? = some p) (other : p ≠ .fork)
      (get : m.dish.get op.input = .ok (v, d))
      (decided : Deed.ofPrimitive m.outlook op d p = (.error f, d')) :
      Acts i op m (.error f) { m.moveTo i with dish := d' }
  | enacted {p : Primitive} {v : Value} {d d' : Dish} {deed : Deed}
      (primitive : op.primitive? = some p) (other : p ≠ .fork)
      (get : m.dish.get op.input = .ok (v, d))
      (decided : Deed.ofPrimitive m.outlook op d p = (.ok deed, d')) :
      Acts i op m (.ok ({ m.moveTo i with dish := d' }.enact deed).frame.cursor)
        ({ m.moveTo i with dish := d' }.enact deed)

def forking (m : Machine) (i : Int) (d : Dish) : Machine :=
  { m.moveTo i with dish := d }

inductive Serves (run : Machine → Stop × Machine) (i : Int) (op : Operation) (m : Machine) :
    Except Halt Int → Machine → Prop where
  | unsplit {v : Value} {d : Dish} {f : Failure} (get : m.dish.get op.input = .ok (v, d))
      (cut : (m.forking i d).split op = (.error f, d)) :
      Serves run i op m (.error (.failed f)) (m.forking i d)
  | halted {v : Value} {d : Dish} {s : Split} {halt : Halt} {h : Harvest}
      (get : m.dish.get op.input = .ok (v, d)) (cut : (m.forking i d).split op = (.ok s, d))
      (served : s.serveAll run 1 s.parts (s.opening m.ledger) = (some halt, h)) :
      Serves run i op m (.error halt) { m.forking i d with ledger := h.ledger }
  | unset {v : Value} {d : Dish} {s : Split} {h : Harvest} {e : Dish.Fault}
      (get : m.dish.get op.input = .ok (v, d)) (cut : (m.forking i d).split op = (.ok s, d))
      (served : s.serveAll run 1 s.parts (s.opening m.ledger) = (none, h))
      (set : Dish.set (.ofGlyphs h.output) op.output = .error e) :
      Serves run i op m (.error (.failed (.ofDish e))) { m.forking i d with ledger := h.ledger }
  | joined {v : Value} {d d' : Dish} {s : Split} {h : Harvest}
      (get : m.dish.get op.input = .ok (v, d)) (cut : (m.forking i d).split op = (.ok s, d))
      (served : s.serveAll run 1 s.parts (s.opening m.ledger) = (none, h))
      (set : Dish.set (.ofGlyphs h.output) op.output = .ok d') :
      Serves run i op m (.ok (i + h.progress))
        { m.moveTo (i + h.progress) with dish := d', ledger := h.ledger }

-- An execution that began at `start` sets about an operation: it stands at the place, is carried out and does
-- not pause, and the limit leaves a step for it.
structure Ready (start i : Int) (op : Operation) (m : Machine) : Prop where
  here : m.opAt? i = some op
  enabled : op.disabled = false
  goes : ¬(op.pauses ∧ i ≠ start)
  allowed : m.ledger.count.exceeded? = none

inductive Rounds (run : Machine → Stop × Machine) (start i : Int) (m : Machine) : Turn → Prop where
  | completed (beyond : (m.ops.length : Int) ≤ i) :
      Rounds run start i m (.ended (.at m.ops.length) (m.note .completed))
  | outside (within : i < m.ops.length) (missing : m.opAt? i = none) :
      Rounds run start i m (.ended .outOfRange m)
  | skipped {op : Operation} (here : m.opAt? i = some op) (disabled : op.disabled = true) :
      Rounds run start i m (.onward (i + 1) (m.note (.skipped i op)))
  | paused {op : Operation} (here : m.opAt? i = some op) (enabled : op.disabled = false)
      (pauses : op.pauses ∧ i ≠ start) :
      Rounds run start i m (.ended (.at i) (m.note (.paused i)))
  | exceeded {op : Operation} {l : Int} (here : m.opAt? i = some op) (enabled : op.disabled = false)
      (goes : ¬(op.pauses ∧ i ≠ start)) (excess : m.ledger.count.exceeded? = some l) :
      Rounds run start i m (.ended (.overLimit l) { m with ledger := m.ledger.count })
  | failed {op : Operation} {f : Failure} {k : Machine} (ready : m.Ready start i op)
      (acts : (m.enter i op).Acts i op (.error f) k) :
      Rounds run start i m (k.conclude i op (.failed f))
  | acted {op : Operation} {j : Int} {k : Machine} (ready : m.Ready start i op)
      (acts : (m.enter i op).Acts i op (.ok j) k) :
      Rounds run start i m (.onward (j + 1) { k with last := place? m.ops.length i })
  | halted {op : Operation} {halt : Halt} {k : Machine} (ready : m.Ready start i op)
      (fork : op.primitive? = some .fork) (serves : (m.enter i op).Serves run i op (.error halt) k) :
      Rounds run start i m (k.conclude i op halt)
  | served {op : Operation} {j : Int} {k : Machine} (ready : m.Ready start i op)
      (fork : op.primitive? = some .fork) (serves : (m.enter i op).Serves run i op (.ok j) k) :
      Rounds run start i m (.onward (j + 1) { k with last := place? m.ops.length i })

/-- Places up to the size on either side of zero stand for one in the list. -/
theorem place_some {size n : Nat} (h : place? size i = some n) :
    n < size ∧ i < size ∧ -(size : Int) ≤ i ∧ (0 ≤ i → i = n) := by
  unfold place? at h
  by_cases hi : i < 0
  · simp only [if_pos hi, Option.ite_none_right_eq_some, Option.some.injEq] at h
    omega
  · simp only [if_neg hi, Option.ite_none_right_eq_some, Option.some.injEq] at h
    omega

theorem place_of_nonneg {size : Nat} (hi : 0 ≤ i) (hs : i < size) :
    place? size i = some i.toNat := by
  simp only [place?, if_neg (Int.not_lt.mpr hi), hi, hs, and_self, if_true]

theorem follows_nat (size n : Nat) : follows size (n : Int) = n + 1 := by
  unfold follows
  rw [if_neg (by omega)]
  omega

/-- A halt ends the run and touches nothing but the dish. -/
theorem conclude_ended (m : Machine) (i : Int) (op : Operation) (halt : Halt) :
    ∃ stop d, m.conclude i op halt = .ended stop { m with dish := d } := by
  unfold conclude
  cases halt with
  | failed f =>
    by_cases expected : f.isExpected
    · exact ⟨_, _, if_pos expected⟩
    · exact ⟨_, _, if_neg expected⟩
  | _ => exact ⟨_, m.dish, rfl⟩

theorem opAt_place (here : m.opAt? i = some op) :
    ∃ n, place? m.ops.length i = some n ∧ m.ops[n]? = some op := by
  simpa only [opAt?, Option.bind_eq_some_iff] using here

theorem opAt_lt (here : m.opAt? i = some op) : i < m.ops.length := by
  obtain ⟨n, hn, -⟩ := opAt_place here
  exact (place_some hn).2.1

theorem opAt_mem (here : m.opAt? i = some op) : op ∈ m.ops := by
  obtain ⟨n, -, hop⟩ := opAt_place here
  exact List.mem_of_getElem? hop

/-- Looking at what a Fork is to serve does not turn a dish that has its input type already. -/
theorem split_dish {v : Value} (get : m.dish.get op.input = .ok (v, m.dish)) :
    (m.split op).2 = m.dish := by
  unfold split
  split
  · rw [get]
    dsimp only
    split <;> rfl
  · rfl

theorem carryOut_other {p : Primitive} (here : m.current? = some op) (other : p ≠ .fork) :
    m.carryOut run p = m.settle (Deed.ofPrimitive m.outlook op m.dish p) := by
  unfold carryOut
  rw [here]
  cases p <;> first | rfl | exact absurd rfl other

theorem carryOut_fork (here : m.current? = some op) : m.carryOut run .fork = m.fork run op := by
  unfold carryOut
  rw [here]

theorem steer_primitive {p : Primitive} (here : m.current? = some op)
    (primitive : op.primitive? = some p) : m.steer run = m.carryOut run p := by
  simp only [steer, here, primitive]

theorem current_moved (d : Dish) (here : m.opAt? i = some op) :
    ({ m.moveTo i with dish := d } : Machine).current? = some op := here

/-- What an operation other than a Fork does is what dispatching it comes to. -/
theorem Acts.dispatch {r : Except Failure Int} {k : Machine} (acts : m.Acts i op r k)
    (here : m.opAt? i = some op) : m.dispatch run i op = (r.mapError .failed, k) := by
  unfold Machine.dispatch
  cases acts with
  | unreadable get =>
    rw [get]
    rfl
  | refused ordinary get made =>
    simp only [get, ordinary, made, Option.isSome_none, Bool.false_eq_true, if_false]
    rfl
  | produced ordinary get made =>
    simp only [get, ordinary, made, Option.isSome_none, Bool.false_eq_true, if_false]
    rfl
  | @declined p v d d' f primitive other get decided =>
    have moved : ({ m with dish := d }.moveTo i).current? = some op := current_moved d here
    -- What is decided depends on the labels and the jumps, which reading the input leaves alone.
    have settled : ({ m with dish := d }.moveTo i).steer run =
        (some (.failed f), { m.moveTo i with dish := d' }) := by
      rw [steer_primitive moved primitive, carryOut_other moved other]
      change settle _ (Deed.ofPrimitive m.outlook op d p) = _
      rw [decided]
      rfl
    simp only [get, primitive, settled, Option.isSome_some, if_true]
    rfl
  | @enacted p v d d' deed primitive other get decided =>
    have moved : ({ m with dish := d }.moveTo i).current? = some op := current_moved d here
    have settled : ({ m with dish := d }.moveTo i).steer run =
        (none, { m.moveTo i with dish := d' }.enact deed) := by
      rw [steer_primitive moved primitive, carryOut_other moved other]
      change settle _ (Deed.ofPrimitive m.outlook op d p) = _
      rw [decided]
      rfl
    simp only [get, primitive, settled, Option.isSome_some, if_true]
    rfl

def halting (r : Except Halt Int) : Option Halt :=
  match r with
  | .error halt => some halt
  | .ok _ => none

theorem Serves.fork {r : Except Halt Int} {k : Machine} {v : Value} {d : Dish}
    (get : m.dish.get op.input = .ok (v, d)) (serves : m.Serves run i op r k) :
    (m.forking i d).fork run op = (halting r, k) := by
  unfold Machine.fork
  -- Each way in which a Fork is served settles one test after the other.
  cases serves with
  | unsplit get' cut =>
    obtain ⟨rfl, rfl⟩ : v = _ ∧ d = _ := by simpa [get] using get'
    rw [cut]
    rfl
  | @halted v' d' s halt h get' cut served =>
    obtain ⟨rfl, rfl⟩ : v = _ ∧ d = _ := by simpa [get] using get'
    rw [cut]
    have served' : s.serveAll run 1 s.parts (s.opening (m.forking i d).ledger) = _ := served
    dsimp only
    rw [served']
    rfl
  | @unset v' d' s h e get' cut served set =>
    obtain ⟨rfl, rfl⟩ : v = _ ∧ d = _ := by simpa [get] using get'
    rw [cut]
    have served' : s.serveAll run 1 s.parts (s.opening (m.forking i d).ledger) = _ := served
    dsimp only
    rw [served']
    simp only [Machine.join, set]
    rfl
  | @joined v' d₁ d' s h get' cut served set =>
    obtain ⟨rfl, rfl⟩ : v = _ ∧ d = _ := by simpa [get] using get'
    rw [cut]
    have served' : s.serveAll run 1 s.parts (s.opening (m.forking i d).ledger) = _ := served
    dsimp only
    rw [served']
    simp only [Machine.join, set]
    rfl

/-- What a Fork does is what dispatching it comes to. -/
theorem Serves.dispatch {r : Except Halt Int} {k : Machine} (serves : m.Serves run i op r k)
    (here : m.opAt? i = some op) (primitive : op.primitive? = some .fork) :
    m.dispatch run i op = (r, k) := by
  obtain ⟨v, d, get⟩ : ∃ v d, m.dish.get op.input = .ok (v, d) := by
    cases serves with
    | unsplit get _ => exact ⟨_, _, get⟩
    | halted get _ _ => exact ⟨_, _, get⟩
    | unset get _ _ _ => exact ⟨_, _, get⟩
    | joined get _ _ _ => exact ⟨_, _, get⟩
  have moved : ({ m with dish := d }.moveTo i).current? = some op := current_moved d here
  have steered : ({ m with dish := d }.moveTo i).steer run = (m.forking i d).fork run op := by
    rw [steer_primitive moved primitive, carryOut_fork moved]
    rfl
  -- A Fork that comes to its end leaves the cursor where the run is to go on.
  have cursor : ∀ j, r = .ok j → k.frame.cursor = j := by
    intro j hj
    subst hj
    cases serves
    rfl
  unfold Machine.dispatch
  simp only [get, primitive, steered, serves.fork get, Option.isSome_some, if_true]
  cases r with
  | error halt => rfl
  | ok j =>
    change (Except.ok k.frame.cursor, k) = _
    rw [cursor j rfl]

/-- Every operation but a Fork acts in one of the ways listed, and so does a Fork that cannot read its
input. -/
theorem acts_of_other (other : op.primitive? ≠ some .fork) : ∃ r k, m.Acts i op r k := by
  cases get : m.dish.get op.input with
  | error e => exact ⟨_, _, .unreadable get⟩
  | ok vd =>
    obtain ⟨v, d⟩ := vd
    -- Transforms make a new value, primitives decide on a deed.
    cases primitive : op.primitive? with
    | none =>
      cases made : op.produce v with
      | error f => exact ⟨_, _, .refused primitive get made⟩
      | ok d' => exact ⟨_, _, .produced primitive get made⟩
    | some p =>
      have hp : p ≠ .fork := fun h => other (h ▸ primitive)
      obtain ⟨r, d', decided⟩ : ∃ r d', Deed.ofPrimitive m.outlook op d p = (r, d') := ⟨_, _, rfl⟩
      cases r with
      | error f => exact ⟨_, _, .declined primitive hp get decided⟩
      | ok deed => exact ⟨_, _, .enacted primitive hp get decided⟩

theorem serves_of_fork (run : Machine → Stop × Machine) {v : Value} {d : Dish}
    (get : m.dish.get op.input = .ok (v, d)) : ∃ r k, m.Serves run i op r k := by
  -- The dish was turned already, so it is not turned again where it is split.
  have kept : ((m.forking i d).split op).2 = d := split_dish (m := m.forking i d) (Dish.get_again get)
  obtain ⟨r, d', cut⟩ : ∃ r d', (m.forking i d).split op = (r, d') := ⟨_, _, rfl⟩
  rw [cut] at kept
  subst kept
  cases r with
  | error f => exact ⟨_, _, .unsplit get cut⟩
  | ok s =>
    obtain ⟨halt, h, served⟩ :
        ∃ halt h, s.serveAll run 1 s.parts (s.opening m.ledger) = (halt, h) := ⟨_, _, rfl⟩
    cases halt with
    | some halt => exact ⟨_, _, .halted get cut served⟩
    | none =>
      cases set : Dish.set (.ofGlyphs h.output) op.output with
      | error e => exact ⟨_, _, .unset get cut served set⟩
      | ok d' => exact ⟨_, _, .joined get cut served set⟩

theorem round_here (here : m.opAt? i = some op) (enabled : op.disabled = false) :
    m.round run start i =
      if op.pauses ∧ i ≠ start then .ended (.at i) (m.note (.paused i))
      else match m.ledger.count.exceeded? with
        | some l => .ended (.overLimit l) { m with ledger := m.ledger.count }
        | none =>
          match (m.enter i op).dispatch run i op with
          | (.ok next, k) => .onward (next + 1) { k with last := place? m.ops.length i }
          | (.error halt, k) => k.conclude i op halt := by
  have goes : ¬op.disabled = true := by
    rw [enabled]
    decide
  unfold Machine.round
  rw [if_neg (Int.not_le.mpr (opAt_lt here)), here]
  exact if_neg goes

theorem round_ready (ready : m.Ready start i op) :
    m.round run start i =
      match (m.enter i op).dispatch run i op with
      | (.ok next, k) => .onward (next + 1) { k with last := place? m.ops.length i }
      | (.error halt, k) => k.conclude i op halt := by
  rw [round_here ready.here ready.enabled, if_neg ready.goes, ready.allowed]

/-- The cases of a round determine it. -/
theorem Rounds.eq {t : Turn} (rounds : m.Rounds run start i t) : m.round run start i = t := by
  -- The tests of a round come in the order of the cases: place, flags, limit, and then the operation.
  cases rounds with
  | completed beyond =>
    unfold Machine.round
    rw [if_pos beyond]
  | outside within missing =>
    unfold Machine.round
    rw [if_neg (Int.not_le.mpr within), missing]
  | skipped here disabled =>
    unfold Machine.round
    rw [if_neg (Int.not_le.mpr (opAt_lt here)), here]
    simp only [disabled, if_true]
  | paused here enabled pauses => rw [round_here here enabled, if_pos pauses]
  | exceeded here enabled goes excess => rw [round_here here enabled, if_neg goes, excess]
  | failed ready acts =>
    rw [round_ready ready, acts.dispatch ready.here]
    rfl
  | acted ready acts =>
    rw [round_ready ready, acts.dispatch ready.here]
    rfl
  | halted ready fork serves => rw [round_ready ready, serves.dispatch ready.here fork]
  | served ready fork serves => rw [round_ready ready, serves.dispatch ready.here fork]

/-- Every round is one of the cases. -/
theorem rounds_round (run : Machine → Stop × Machine) (start i : Int) (m : Machine) :
    ∃ t, m.Rounds run start i t := by
  -- The cases are split in the order in which a round makes its tests.
  by_cases beyond : (m.ops.length : Int) ≤ i
  · exact ⟨_, .completed beyond⟩
  cases here : m.opAt? i with
  | none => exact ⟨_, .outside (Int.not_le.mp beyond) here⟩
  | some op =>
    cases enabled : op.disabled with
    | true => exact ⟨_, .skipped here enabled⟩
    | false =>
      by_cases pauses : op.pauses ∧ i ≠ start
      · exact ⟨_, .paused here enabled pauses⟩
      cases excess : m.ledger.count.exceeded? with
      | some l => exact ⟨_, .exceeded here enabled pauses excess⟩
      | none =>
        have ready : m.Ready start i op := ⟨here, enabled, pauses, excess⟩
        by_cases other : op.primitive? = some .fork
        · -- A Fork that cannot read its input fails like any other operation.
          cases get : (m.enter i op).dish.get op.input with
          | error e => exact ⟨_, .failed ready (.unreadable get)⟩
          | ok vd =>
            obtain ⟨r, k, serves⟩ := serves_of_fork (i := i) run get
            cases r with
            | error halt => exact ⟨_, .halted ready other serves⟩
            | ok j => exact ⟨_, .served ready other serves⟩
        · obtain ⟨r, k, acts⟩ := acts_of_other (i := i) (m := m.enter i op) other
          cases r with
          | error f => exact ⟨_, .failed ready acts⟩
          | ok j => exact ⟨_, .acted ready acts⟩

/-- The relation is the round. -/
theorem rounds_iff {t : Turn} : m.Rounds run start i t ↔ m.round run start i = t := by
  constructor
  · exact Rounds.eq
  · intro h
    obtain ⟨t', ht'⟩ := rounds_round run start i m
    rw [← h, ht'.eq]
    exact ht'

end Kitchen.Run.Machine

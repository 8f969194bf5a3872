import Kitchen.Proofs.Run.Places
import Kitchen.Proofs.Run.Growth
import Kitchen.Proofs.Run.Thinning

namespace Kitchen

def Operation.cleared (op : Operation) : Operation :=
  { op with pauses := false }

namespace Operation

@[simp] theorem cleared_args (op : Operation) : op.cleared.args = op.args := rfl

@[simp] theorem cleared_input (op : Operation) : op.cleared.input = op.input := rfl

@[simp] theorem cleared_output (op : Operation) : op.cleared.output = op.output := rfl

@[simp] theorem cleared_disabled (op : Operation) : op.cleared.disabled = op.disabled := rfl

@[simp] theorem cleared_primitive (op : Operation) : op.cleared.primitive? = op.primitive? := rfl

@[simp] theorem cleared_does (op : Operation) (p : Primitive) : op.cleared.does p = op.does p := rfl

@[simp] theorem cleared_produce (op : Operation) (v : Value) :
    op.cleared.produce v = op.produce v := rfl

end Operation

def clearAll (ops : List Operation) : List Operation :=
  ops.map .cleared

@[simp] theorem clearAll_length (ops : List Operation) : (clearAll ops).length = ops.length :=
  List.length_map _

theorem clearAll_drop (n : Nat) (ops : List Operation) :
    (clearAll ops).drop n = clearAll (ops.drop n) :=
  List.map_drop.symm

theorem clearAll_takeWhile (ops : List Operation) :
    (clearAll ops).takeWhile (fun op => !op.does .merge) =
      clearAll (ops.takeWhile fun op => !op.does .merge) :=
  List.takeWhile_map

@[simp] theorem labelPosition_clearAll (name : Value) (ops : List Operation) :
    labelPosition? name (clearAll ops) = labelPosition? name ops :=
  List.findIdx?_map

namespace Run

theorem jumpBound_clearAll (ops : List Operation) : jumpBound (clearAll ops) = jumpBound ops := by
  unfold jumpBound clearAll
  rw [List.foldl_map]
  rfl

@[simp] theorem rounds_clearAll (ops : List Operation) (limit : Option Int) :
    rounds (clearAll ops) limit = rounds ops limit := by
  unfold rounds
  rw [jumpBound_clearAll, clearAll_length]

-- Two ledgers with the same texts, steps, limit and publications, whatever else they have noted.
structure Ledger.Same (l l' : Ledger) : Prop where
  registers : l'.registers = l.registers
  steps : l'.steps = l.steps
  limit : l'.limit = l.limit
  publications : l'.publications = l.publications

namespace Ledger

variable {l l' : Ledger}

theorem Same.refl (l : Ledger) : l.Same l := ⟨rfl, rfl, rfl, rfl⟩

theorem Same.note (same : l.Same l') (e e' : Event)
    (other : ∀ p, e ≠ .published p := by exact fun _ => Event.noConfusion)
    (other' : ∀ p, e' ≠ .published p := by exact fun _ => Event.noConfusion) :
    (l.note e).Same (l'.note e') where
  registers := same.registers
  steps := same.steps
  limit := same.limit
  publications := by
    rw [note_publications l e other, note_publications l' e' other', same.publications]

theorem Same.note_left (same : l.Same l') (e : Event)
    (other : ∀ p, e ≠ .published p := by exact fun _ => Event.noConfusion) : (l.note e).Same l' where
  registers := same.registers
  steps := same.steps
  limit := same.limit
  publications := by
    rw [note_publications l e other]
    exact same.publications

theorem Same.count (same : l.Same l') : l.count.Same l'.count where
  registers := same.registers
  steps := congrArg (· + 1) same.steps
  limit := same.limit
  publications := same.publications

theorem Same.publish (same : l.Same l') (p : Publication) : (l.publish p).Same (l'.publish p) where
  registers := congrArg (· ++ p.texts) same.registers
  steps := same.steps
  limit := same.limit
  publications := by
    rw [publish_publications, publish_publications, same.publications]

theorem Same.exceeded (same : l.Same l') : l'.exceeded? = l.exceeded? := by
  unfold exceeded?
  rw [same.limit, same.steps]

end Ledger

namespace Machine

variable {run : Machine → Stop × Machine} {start start' i : Int} {op : Operation}
  {m m' k : Machine} {ledger : Ledger}

def cleared (m : Machine) (ledger : Ledger) : Machine :=
  { m with ops := clearAll m.ops, ledger }

inductive Cleared (m : Machine) : Machine → Prop where
  | intro {ledger : Ledger} (same : m.ledger.Same ledger) : Cleared m (m.cleared ledger)

-- A way of running tranches in which clearing the pauses of a list changes nothing if nothing enabled pauses in
-- it.
def Heedless (run : Machine → Stop × Machine) : Prop :=
  ∀ m m', Unpaused m.ops → m.Cleared m' → (run m').1 = (run m).1 ∧ (run m).2.Cleared (run m').2

theorem opAt_cleared (m : Machine) (ledger : Ledger) (i : Int) :
    (m.cleared ledger).opAt? i = (m.opAt? i).map .cleared := by
  unfold opAt? cleared clearAll
  rw [List.length_map]
  cases place? m.ops.length i with
  | none => rfl
  | some n => exact List.getElem?_map

theorem outlook_cleared (m : Machine) (ledger : Ledger) :
    (m.cleared ledger).outlook = m.outlook := by
  unfold outlook cleared
  simp only [labelPosition_clearAll]

theorem resolveArgs_cleared (c : Reference.Capture) (op : Operation) :
    resolveArgs c op.cleared = (resolveArgs c op).cleared := by
  unfold resolveArgs
  rw [Operation.cleared_disabled]
  split <;> rfl

theorem resolveRest_cleared (m : Machine) (ledger : Ledger) (c : Reference.Capture) :
    (m.cleared ledger).resolveRest c = (m.resolveRest c).cleared ledger := by
  unfold resolveRest cleared clearAll
  dsimp only
  rw [List.length_map, List.map_append, List.map_take, ← List.map_drop, List.map_map, List.map_map]
  congr 2
  apply List.map_congr_left
  intro op _
  exact resolveArgs_cleared c op

/-- A deed does the same without pauses, and publishes the same. -/
theorem enact_cleared (m : Machine) (same : m.ledger.Same ledger) (deed : Deed) :
    ∃ ledger', (m.cleared ledger).enact deed = (m.enact deed).cleared ledger' ∧
      (m.enact deed).ledger.Same ledger' := by
  cases deed with
  | pass => exact ⟨ledger, rfl, same⟩
  | stay => exact ⟨_, rfl, same.note _ _⟩
  | leap label place => exact ⟨_, rfl, same.note _ _⟩
  | finish =>
    refine ⟨ledger, ?_, same⟩
    change (m.cleared ledger).moveTo ((clearAll m.ops).length : Int) = _
    rw [clearAll_length]
    rfl
  | capture texts =>
    have filled := resolveRest_cleared m ledger ⟨m.frame.addressable, texts⟩
    refine ⟨ledger.publish ⟨m.frame.offset + m.frame.cursor, m.frame.addressable,
      texts⟩, ?_, same.publish _⟩
    change ({ (m.cleared ledger).resolveRest ⟨m.frame.addressable, texts⟩ with
      frame := _, ledger := _ } : Machine) = _
    rw [filled]
    rfl

theorem Acts.cleared {r : Except Failure Int} (acts : m.Acts i op r k) (same : m.ledger.Same ledger) :
    ∃ k', (m.cleared ledger).Acts i op.cleared r k' ∧ k.Cleared k' := by
  cases acts with
  | unreadable get => exact ⟨_, .unreadable get, .intro same⟩
  | @refused v d f ordinary get made =>
    have both : Cleared { m with dish := d } ({ m with dish := d }.cleared ledger) := .intro same
    exact ⟨_, .refused ordinary get made, both⟩
  | @produced v d d' ordinary get made =>
    have both : Cleared { m with dish := d' } ({ m with dish := d' }.cleared ledger) := .intro same
    exact ⟨_, .produced ordinary get made, both⟩
  | @declined p v d d' f primitive other get decided =>
    have both : Cleared { m.moveTo i with dish := d' }
        ({ m.moveTo i with dish := d' }.cleared ledger) := .intro same
    have decided' : Deed.ofPrimitive (m.cleared ledger).outlook op.cleared d p = (.error f, d') := by
      rw [outlook_cleared]
      exact decided
    exact ⟨_, .declined primitive other get decided', both⟩
  | @enacted p v d d' deed primitive other get decided =>
    have decided' : Deed.ofPrimitive (m.cleared ledger).outlook op.cleared d p = (.ok deed, d') := by
      rw [outlook_cleared]
      exact decided
    -- What is enacted is stated of the cleared machine, and comes to what the other one does, cleared.
    have acted : (m.cleared ledger).Acts i op.cleared _ _ := .enacted primitive other get decided'
    change (m.cleared ledger).Acts i op.cleared
      (.ok (({ m.moveTo i with dish := d' } : Machine).cleared ledger |>.enact deed).frame.cursor)
      (({ m.moveTo i with dish := d' } : Machine).cleared ledger |>.enact deed) at acted
    obtain ⟨ledger', enacted, same'⟩ := enact_cleared { m.moveTo i with dish := d' } same deed
    rw [enacted] at acted
    exact ⟨_, acted, .intro same'⟩

namespace Split

variable {s : Split} {number : Nat} {v : Value} {h h₁ : Harvest} {halt : Option Halt}

def cleared (s : Split) : Split :=
  { s with op := s.op.cleared, body := clearAll s.body }

def reaped (h : Harvest) (ledger : Ledger) : Harvest :=
  { h with ops := clearAll h.ops, ledger }

theorem restore_cleared (s : Split) (ops : List Operation) :
    s.cleared.restore (clearAll ops) = clearAll (s.restore ops) := by
  unfold restore cleared clearAll
  rw [List.zipWith_map, List.map_zipWith]
  rfl

theorem next_cleared (s : Split) (number : Nat) (dish : Dish) (h : Harvest) (ledger : Ledger) :
    s.cleared.next number dish (reaped h ledger) =
      (s.next number dish h).cleared (ledger.note (.tranche number s.parts.length)) := by
  change (Machine.mk (s.cleared.restore (clearAll h.ops)) _ _ _ _ : Machine) = _
  rw [restore_cleared]
  rfl

theorem remark_same {l l' : Ledger} (same : l.Same l') (number : Nat) (stop : Stop) :
    (remark number stop l).Same (remark number stop l') := by
  cases stop with
  | broken b => exact same.note _ _
  | _ => exact same

/-- A tranche brings the same without pauses. -/
theorem Serve.cleared (heedless : Heedless run) (unpaused : Unpaused (s.restore h.ops))
    (same : h.ledger.Same ledger) (serve : s.Serve run number v h halt h₁) :
    ∃ ledger', s.cleared.Serve run number v (reaped h ledger) halt (reaped h₁ ledger') ∧
      h₁.ledger.Same ledger' := by
  have noted : (h.ledger.note (.tranche number s.parts.length)).Same
      (ledger.note (.tranche number s.parts.length)) := same.note _ _
  -- The machine that runs the tranche is the same without pauses.
  have child : ∀ {dish stop m}, run (s.next number dish h) = (stop, m) →
      ∃ ledger', run (s.cleared.next number dish (reaped h ledger)) = (stop, m.cleared ledger') ∧
        m.ledger.Same ledger' := by
    intro dish stop m ran
    have both := heedless (s.next number dish h) _ unpaused (.intro noted)
    rw [← next_cleared, ran] at both
    obtain ⟨ended, cleared⟩ := both
    generalize run (s.cleared.next number dish (reaped h ledger)) = ran' at ended cleared
    obtain ⟨stop', m'⟩ := ran'
    obtain rfl : stop' = stop := ended
    obtain ⟨same'⟩ := cleared
    exact ⟨_, rfl, same'⟩
  cases serve with
  | unmade made => exact ⟨_, .unmade made, noted⟩
  | stopped made ran reach =>
    obtain ⟨ledger', ran', same'⟩ := child ran
    have serve' : s.cleared.Serve run number v (reaped h ledger) _ _ := .stopped made ran' reach
    exact ⟨ledger', serve', same'⟩
  | @unread dish stop m progress e made ran reach get =>
    obtain ⟨ledger', ran', same'⟩ := child ran
    have serve' : s.cleared.Serve run number v (reaped h ledger) _ _ := .unread made ran' reach get
    exact ⟨_, serve', remark_same same' number stop⟩
  | @brought dish d stop m progress w made ran reach get =>
    obtain ⟨ledger', ran', same'⟩ := child ran
    have serve' : s.cleared.Serve run number v (reaped h ledger) _ _ := .brought made ran' reach get
    exact ⟨_, serve', remark_same same' number stop⟩

theorem serveAll_cleared (heedless : Heedless run) (keeps : KeepsShape run)
    (unpaused : Unpaused s.body) (number : Nat) (vs : List Value) (akin : OpsAkin s.body h.ops)
    (same : h.ledger.Same ledger) (served : s.serveAll run number vs h = (halt, h₁)) :
    ∃ ledger', s.cleared.serveAll run number vs (reaped h ledger) = (halt, reaped h₁ ledger') ∧
      h₁.ledger.Same ledger' := by
  induction vs generalizing number h ledger with
  | nil =>
    obtain ⟨rfl, rfl⟩ : none = halt ∧ h = h₁ := by simpa [serveAll] using served
    exact ⟨ledger, rfl, same⟩
  | cons v vs ih =>
    obtain ⟨halt₂, h₂, serve⟩ := serve_serve run s number v h
    -- Each tranche starts with the operations of the Fork again, so nothing pauses in it.
    have restored : s.restore h.ops = s.body := restore_akin akin
    obtain ⟨ledger₂, serve', same₂⟩ := serve.cleared heedless (by rwa [restored]) same
    have akin₂ := serve.akin keeps akin
    rw [serveAll, serve.eq] at served
    rw [serveAll, serve'.eq]
    cases halt₂ with
    | none => exact ih (number + 1) akin₂ same₂ served
    | some halt₂ =>
      obtain ⟨rfl, rfl⟩ : some halt₂ = halt ∧ h₂ = h₁ := by simpa using served
      exact ⟨ledger₂, rfl, same₂⟩

end Split

theorem forkBody_cleared (m : Machine) (ledger : Ledger) :
    (m.cleared ledger).forkBody = clearAll m.forkBody := by
  unfold forkBody rest cleared
  rw [clearAll_length, clearAll_drop, clearAll_takeWhile]

/-- What a Fork is to serve is the same without pauses. -/
theorem split_cleared (m : Machine) (ledger : Ledger) (op : Operation) :
    (m.cleared ledger).split op.cleared = ((m.split op).1.map Split.cleared, (m.split op).2) := by
  have dishes : (m.cleared ledger).dish = m.dish := rfl
  unfold split
  rw [Operation.cleared_args, Operation.cleared_input, dishes, forkBody_cleared]
  split
  · split
    · rfl
    · split <;> rfl
  · rfl

theorem Serves.cleared {r : Except Halt Int} (heedless : Heedless run) (keeps : KeepsShape run)
    (unpaused : ∀ d s, (m.forking i d).split op = (.ok s, d) → Unpaused s.body)
    (serves : m.Serves run i op r k) (same : m.ledger.Same ledger) :
    ∃ k', (m.cleared ledger).Serves run i op.cleared r k' ∧ k.Cleared k' := by
  -- Both Forks cut the same text into the same parts, and their tranches leave the same.
  have splits : ∀ {d s}, (m.forking i d).split op = (.ok s, d) →
      ((m.cleared ledger).forking i d).split op.cleared = (.ok s.cleared, d) := by
    intro d s cut
    have both := split_cleared (m.forking i d) ledger op
    rw [cut] at both
    exact both
  have tranches : ∀ {d s halt h}, (m.forking i d).split op = (.ok s, d) →
      s.serveAll run 1 s.parts (s.opening m.ledger) = (halt, h) →
      ∃ ledger', s.cleared.serveAll run 1 s.cleared.parts (s.cleared.opening ledger) =
          (halt, Split.reaped h ledger') ∧ h.ledger.Same ledger' := by
    intro d s halt h cut served
    exact Split.serveAll_cleared heedless keeps (unpaused d s cut) 1 _ (.refl s.body) same served
  cases serves with
  | @unsplit v d f get cut =>
    have cut' := split_cleared (m.forking i d) ledger op
    rw [cut] at cut'
    have serves' : (m.cleared ledger).Serves run i op.cleared _ _ := .unsplit get cut'
    have both : (m.forking i d).Cleared ((m.forking i d).cleared ledger) := .intro same
    exact ⟨_, serves', both⟩
  | @halted v d s halt h get cut served =>
    obtain ⟨ledger', served', same'⟩ := tranches cut served
    have serves' : (m.cleared ledger).Serves run i op.cleared _ _ :=
      .halted get (splits cut) served'
    have both : Cleared { m.forking i d with ledger := h.ledger }
        ({ m.forking i d with ledger := h.ledger }.cleared ledger') := .intro same'
    exact ⟨_, serves', both⟩
  | @unset v d s h e get cut served set =>
    obtain ⟨ledger', served', same'⟩ := tranches cut served
    have serves' : (m.cleared ledger).Serves run i op.cleared _ _ :=
      .unset get (splits cut) served' set
    have both : Cleared { m.forking i d with ledger := h.ledger }
        ({ m.forking i d with ledger := h.ledger }.cleared ledger') := .intro same'
    exact ⟨_, serves', both⟩
  | @joined v d d' s h get cut served set =>
    obtain ⟨ledger', served', same'⟩ := tranches cut served
    have serves' : (m.cleared ledger).Serves run i op.cleared _ _ :=
      .joined get (splits cut) served' set
    have both : Cleared { m.moveTo (i + h.progress) with dish := d', ledger := h.ledger }
        ({ m.moveTo (i + h.progress) with dish := d', ledger := h.ledger }.cleared ledger') :=
      .intro same'
    exact ⟨_, serves', both⟩

def Held (start i : Int) (m : Machine) : Prop :=
  ∃ op, m.opAt? i = some op ∧ op.disabled = false ∧ op.pauses = true ∧ i ≠ start

theorem conclude_cleared (cleared : m.Cleared m') (i : Int) (op : Operation) (halt : Halt) :
    Turn.Lockstep Cleared (m.conclude i op halt) (m'.conclude i op.cleared halt) := by
  obtain ⟨same⟩ := cleared
  unfold conclude
  cases halt with
  | failed f =>
    dsimp only
    split
    · have both : Cleared { m with dish := ⟨.ofGlyphs f.message, Kind.string.tag⟩ }
          ({ m with dish := ⟨.ofGlyphs f.message, Kind.string.tag⟩ }.cleared _) := .intro same
      exact .ended both
    · exact .ended (.intro same)
  | _ => exact .ended (.intro same)

theorem Cleared.note (cleared : m.Cleared m') (e e' : Event)
    (other : ∀ p, e ≠ .published p := by exact fun _ => Event.noConfusion)
    (other' : ∀ p, e' ≠ .published p := by exact fun _ => Event.noConfusion) :
    (m.note e).Cleared (m'.note e') := by
  obtain ⟨same⟩ := cleared
  have both : (m.note e).Cleared ((m.note e).cleared _) := .intro (same.note e e' other other')
  exact both

theorem Cleared.note_left (cleared : m.Cleared m') (e : Event)
    (other : ∀ p, e ≠ .published p := by exact fun _ => Event.noConfusion) :
    (m.note e).Cleared m' := by
  obtain @⟨ledger, same⟩ := cleared
  have both : (m.note e).Cleared ((m.note e).cleared ledger) := .intro (same.note_left e other)
  exact both

theorem Cleared.complete (cleared : m.Cleared m') (last : Option Nat) :
    Machine.Cleared { m with last } { m' with last } := by
  obtain ⟨same⟩ := cleared
  have both : Machine.Cleared { m with last } ({ m with last }.cleared _) := .intro same
  exact both

theorem Ready.cleared (ready : m.Ready start i op) (same : m.ledger.Same ledger) :
    (m.cleared ledger).Ready start' i op.cleared where
  here := by
    rw [opAt_cleared, ready.here]
    rfl
  enabled := ready.enabled
  goes pauses := Bool.false_ne_true pauses.1
  allowed := by
    have exceeded : ledger.count.exceeded? = m.ledger.count.exceeded? := same.count.exceeded
    exact exceeded.trans ready.allowed

/-- A round that no pause holds is the same without pauses, wherever the other execution began. -/
theorem Rounds.cleared {t : Turn} (heedless : Heedless run) (keeps : KeepsShape run)
    (unpaused : ∀ op d s, m.opAt? i = some op → op.does .fork →
      ((m.enter i op).forking i d).split op = (.ok s, d) → Unpaused s.body)
    (free : ¬m.Held start i) (rounds : m.Rounds run start i t) (cleared : m.Cleared m') :
    Turn.Lockstep Cleared t (m'.round run start' i) := by
  obtain @⟨ledger, same⟩ := cleared
  have begun : m.Cleared (m.cleared ledger) := .intro same
  have length : (m.cleared ledger).ops.length = m.ops.length := clearAll_length m.ops
  have entered : ∀ op, (m.enter i op).ledger.Same ((m.cleared ledger).enter i op.cleared).ledger :=
    fun op => same.count.note _ _
  have there : ∀ {op}, m.opAt? i = some op → (m.cleared ledger).opAt? i = some op.cleared := by
    intro op here
    rw [opAt_cleared, here]
    rfl
  -- Whether an operation pauses decides nothing but the round that a pause holds, which is ruled out.
  cases rounds with
  | completed beyond =>
    rw [← length] at beyond ⊢
    have both : (m.cleared ledger).Rounds run start' i _ := .completed beyond
    rw [both.eq]
    exact .ended (begun.note _ _)
  | outside within missing =>
    rw [← length] at within
    have both : (m.cleared ledger).Rounds run start' i _ := .outside within (by
      rw [opAt_cleared, missing]
      rfl)
    rw [both.eq]
    exact .ended begun
  | @skipped op here disabled =>
    have both : (m.cleared ledger).Rounds run start' i _ := .skipped (there here) disabled
    rw [both.eq]
    exact .onward (begun.note _ _)
  | @paused op here enabled pauses =>
    exact absurd ⟨op, here, enabled, pauses⟩ free
  | @exceeded op l here enabled goes excess =>
    have excess' : ledger.count.exceeded? = some l := same.count.exceeded.trans excess
    have goes' : ¬(op.cleared.pauses ∧ i ≠ start') := fun pauses => Bool.false_ne_true pauses.1
    have both : (m.cleared ledger).Rounds run start' i _ :=
      .exceeded (there here) enabled goes' excess'
    rw [both.eq]
    have counted : Cleared { m with ledger := m.ledger.count }
        ({ m with ledger := m.ledger.count }.cleared ledger.count) := .intro same.count
    exact .ended counted
  | @failed op f k ready acts =>
    obtain ⟨k', acts', cleared'⟩ := acts.cleared (entered op)
    have both : (m.cleared ledger).Rounds run start' i _ := .failed (ready.cleared same) acts'
    rw [both.eq]
    exact conclude_cleared cleared' i op _
  | @acted op j k ready acts =>
    obtain ⟨k', acts', cleared'⟩ := acts.cleared (entered op)
    have both : (m.cleared ledger).Rounds run start' i _ := .acted (ready.cleared same) acts'
    rw [both.eq, length]
    exact .onward (cleared'.complete _)
  | @halted op halt k ready fork serves =>
    have does : op.does .fork := Operation.does_iff.mpr ⟨fork, ready.enabled⟩
    obtain ⟨k', serves', cleared'⟩ :=
      serves.cleared heedless keeps (fun d s => unpaused op d s ready.here does) (entered op)
    have both : (m.cleared ledger).Rounds run start' i _ := .halted (ready.cleared same) fork serves'
    rw [both.eq]
    exact conclude_cleared cleared' i op _
  | @served op j k ready fork serves =>
    have does : op.does .fork := Operation.does_iff.mpr ⟨fork, ready.enabled⟩
    obtain ⟨k', serves', cleared'⟩ :=
      serves.cleared heedless keeps (fun d s => unpaused op d s ready.here does) (entered op)
    have both : (m.cleared ledger).Rounds run start' i _ := .served (ready.cleared same) fork serves'
    rw [both.eq, length]
    exact .onward (cleared'.complete _)

theorem free_of_unpaused (unpaused : Unpaused m.ops) : ¬m.Held start i := by
  rintro ⟨op, here, enabled, pauses, -⟩
  rw [unpaused op (opAt_mem here) enabled] at pauses
  cases pauses

theorem drive_cleared (heedless : Heedless run) (keeps : KeepsShape run) (fuel : Nat)
    (unpaused : Unpaused m.ops) (cleared : m.Cleared m') :
    (m'.drive run start' fuel i).1 = (m.drive run start fuel i).1 ∧
      (m.drive run start fuel i).2.Cleared (m'.drive run start' fuel i).2 := by
  induction fuel generalizing i m m' with
  | zero => exact ⟨rfl, cleared⟩
  | succ fuel ih =>
    obtain ⟨t, rounds⟩ := rounds_round run start i m
    -- The operations of a Fork are among those of the list, so nothing pauses in them either.
    have bodies : ∀ op d s, m.opAt? i = some op → op.does .fork →
        ((m.enter i op).forking i d).split op = (.ok s, d) → Unpaused s.body := by
      intro op d s here does cut
      have subset : s.body ⊆ ((m.enter i op).forking i d).ops := split_subset cut
      exact Unpaused.subset unpaused subset
    have both : Turn.Lockstep Cleared t (m'.round run start' i) :=
      rounds.cleared heedless keeps bodies (free_of_unpaused unpaused) cleared
    have kept : t.Meets (fun _ k => OpsAkin m.ops k.ops) fun _ k => OpsAkin m.ops k.ops :=
      shape.round (fun n _ => keeps n) (.refl m.ops) rounds
    unfold drive
    rw [rounds.eq]
    generalize m'.round run start' i = t' at both
    cases both with
    | ended cleared' => exact ⟨rfl, cleared'⟩
    | onward cleared' => exact ih (Unpaused.akin unpaused kept) cleared'

theorem execute_cleared (depth : Nat) (start : Int) (unpaused : Unpaused m.ops)
    (cleared : m.Cleared m') :
    (m'.execute depth start).1 = (m.execute depth start).1 ∧
      (m.execute depth start).2.Cleared (m'.execute depth start).2 := by
  induction depth generalizing start m m' with
  | zero => exact ⟨rfl, cleared⟩
  | succ depth ih =>
    have heedless : Heedless (execute depth 0) := fun n n' unpaused' cleared' =>
      ih 0 unpaused' cleared'
    have begun := cleared.note (.started m.ops.length start) (.started m'.ops.length start)
    -- The rounds that are granted depend on the budgets and the limit alone.
    have granted : rounds m'.ops m'.ledger.limit = rounds m.ops m.ledger.limit := by
      obtain ⟨same⟩ := cleared
      exact (rounds_clearAll _ _).trans (congrArg _ same.limit)
    unfold execute
    rw [granted]
    exact drive_cleared heedless (regular_execute depth).shape _ unpaused begun

theorem heedless_run : Heedless (Machine.run 0) := by
  intro m m' unpaused cleared
  have length : m'.ops.length = m.ops.length := by
    obtain ⟨same⟩ := cleared
    exact clearAll_length m.ops
  unfold Machine.run
  rw [length]
  exact execute_cleared _ 0 unpaused cleared

end Machine

end Run

end Kitchen

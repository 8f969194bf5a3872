import Kitchen.Proofs.Run.Growth
import Kitchen.Proofs.Run.Termination

/-!
What a step limit does to a run. Until the limit is reached a run goes on as it would without one, and
then it stops at once, out of all Forks; so the limit does nothing but cut the run short.
-/
namespace Kitchen.Run

def Ledger.capped (n : Nat) (l : Ledger) : Ledger :=
  { l with limit := some n }

-- The ledger of a run without a limit, before it has taken more steps than a limit would allow.
structure Ledger.Unspent (n : Nat) (l : Ledger) : Prop where
  tallied : l.Tallied
  within : l.steps ≤ n

theorem Ledger.Unspent.note {n : Nat} {l : Ledger} (h : l.Unspent n) (e : Event)
    (other : ∀ i op, e ≠ .dispatched i op := by exact fun _ _ => Event.noConfusion)
    (unpublished : ∀ p, e ≠ .published p := by exact fun _ => Event.noConfusion) :
    (l.note e).Unspent n :=
  ⟨(Ledger.grows_note l e other unpublished).tallied h.tallied, h.within⟩

structure Ledger.Cut (n : Nat) (whole cut : Ledger) : Prop where
  excess : n < whole.steps
  registers : cut.registers <+: whole.registers
  events : cut.events.toList <+: whole.events.toList
  dispatches : cut.dispatches.length = n

theorem Ledger.Cut.grows {n : Nat} {l l' cut : Ledger} (h : l.Cut n cut) (grows : l.Grows l') :
    l'.Cut n cut where
  excess := Nat.lt_of_lt_of_le h.excess grows.steps
  registers := h.registers.trans grows.registers
  events := h.events.trans grows.events
  dispatches := h.dispatches

/-- As many operations are dispatched as the limit allows, and they are the first ones. -/
theorem Ledger.Cut.take {n : Nat} {l cut : Ledger} (h : l.Cut n cut) :
    cut.dispatches = l.dispatches.take n := by
  have first : cut.dispatches <+: l.dispatches := h.events.filterMap _
  rw [List.prefix_iff_eq_take, h.dispatches] at first
  exact first

def Machine.capped (n : Nat) (m : Machine) : Machine :=
  { m with ledger := m.ledger.capped n }

def Machine.Harvest.capped (n : Nat) (h : Harvest) : Harvest :=
  { h with ledger := h.ledger.capped n }

inductive Turn.Truncated (n : Nat) : Turn → Turn → Prop where
  | ended {stop : Stop} {m : Machine} (within : m.ledger.steps ≤ n) :
      Truncated n (.ended stop m) (.ended stop (m.capped n))
  | onward {i : Int} {m : Machine} (within : m.ledger.steps ≤ n) :
      Truncated n (.onward i m) (.onward i (m.capped n))
  | cut {t : Turn} {k : Machine} (cut : t.machine.ledger.Cut n k.ledger) :
      Truncated n t (.ended (.overLimit n) k)

namespace Machine

variable {n : Nat} {run run' : Machine → Stop × Machine} {start i : Int} {op : Operation}
  {m k : Machine}

-- The second way of running tranches does under a limit what the first one does without.
def Truncating (n : Nat) (run run' : Machine → Stop × Machine) : Prop :=
  ∀ m, Budgeted m.ops → m.ledger.Unspent n →
    Turn.Truncated n (.ended (run m).1 (run m).2)
      (.ended (run' (m.capped n)).1 (run' (m.capped n)).2)

theorem enact_capped (m : Machine) (deed : Deed) :
    (m.capped n).enact deed = (m.enact deed).capped n := by
  cases deed <;> rfl

/-- Operations other than Forks do not look at the ledger. -/
theorem Acts.capped {r : Except Failure Int} (acts : m.Acts i op r k) :
    (m.capped n).Acts i op r (k.capped n) := by
  cases acts with
  | unreadable get => exact .unreadable get
  | refused ordinary get made => exact .refused ordinary get made
  | produced ordinary get made => exact .produced ordinary get made
  | declined primitive other get decided => exact .declined primitive other get decided
  | @enacted p v d d' deed primitive other get decided =>
    have acted := Acts.enacted (i := i) (m := m.capped n) primitive other get decided
    have same : ({ (m.capped n).moveTo i with dish := d' } : Machine).enact deed =
        ({ m.moveTo i with dish := d' }.enact deed).capped n :=
      enact_capped { m.moveTo i with dish := d' } deed
    rw [same] at acted
    exact acted

theorem Acts.steps {r : Except Failure Int} (acts : m.Acts i op r k) :
    k.ledger.steps = m.ledger.steps := by
  cases acts with
  | enacted primitive other get decided => simp only [enact_steps]; rfl
  | _ => rfl

theorem conclude_truncated (halt : Halt) (within : k.ledger.steps ≤ n) :
    Turn.Truncated n (k.conclude i op halt) ((k.capped n).conclude i op halt) := by
  unfold conclude
  cases halt with
  | failed f =>
    dsimp only
    split
    · exact .ended (m := { k with dish := _ }) within
    · exact .ended within
  | _ => exact .ended within

namespace Split

variable {s : Split} {number : Nat} {v : Value} {h h' : Harvest} {halt : Option Halt}

inductive Truncated (n : Nat) : Option Halt × Harvest → Option Halt × Harvest → Prop where
  | whole {halt : Option Halt} {h : Harvest} (within : h.ledger.steps ≤ n) :
      Truncated n (halt, h) (halt, h.capped n)
  | cut {halt : Option Halt} {h h' : Harvest} (cut : h.ledger.Cut n h'.ledger) :
      Truncated n (halt, h) (some (.overLimit n), h')

theorem remark_capped (number : Nat) (stop : Stop) (ledger : Ledger) :
    remark number stop (ledger.capped n) = (remark number stop ledger).capped n := by
  cases stop <;> rfl

theorem remark_steps (number : Nat) (stop : Stop) (ledger : Ledger) :
    (remark number stop ledger).steps = ledger.steps := by
  cases stop <;> rfl

/-- A tranche under the limit ends as without it, or is cut short. -/
theorem tranche_truncated {dish : Dish} {stop : Stop} (truncating : Truncating n run run')
    (budgeted : Budgeted s.body) (akin : OpsAkin s.body h.ops) (unspent : h.ledger.Unspent n)
    (ran : run (s.next number dish h) = (stop, m)) :
    (m.ledger.steps ≤ n ∧ run' (s.next number dish (h.capped n)) = (stop, m.capped n)) ∨
      ∃ m', run' (s.next number dish (h.capped n)) = (.overLimit n, m') ∧
        m.ledger.Cut n m'.ledger := by
  have noted : (s.next number dish h).ledger.Unspent n := unspent.note _
  have body : Budgeted (s.next number dish h).ops := by
    change Budgeted (s.restore h.ops)
    rw [restore_akin akin]
    exact budgeted
  have both := truncating (s.next number dish h) body noted
  change Turn.Truncated n _ (.ended (run' (s.next number dish (h.capped n))).1
    (run' (s.next number dish (h.capped n))).2) at both
  rw [ran] at both
  generalize run' (s.next number dish (h.capped n)) = ran' at both
  obtain ⟨stop', m'⟩ := ran'
  cases both with
  | ended within => exact .inl ⟨within, rfl⟩
  | cut cut => exact .inr ⟨m', rfl, cut⟩

/-- A tranche that is cut short halts its Fork, whether failures are ignored or not. -/
theorem Serve.truncated (truncating : Truncating n run run') (budgeted : Budgeted s.body)
    (akin : OpsAkin s.body h.ops) (unspent : h.ledger.Unspent n)
    (serve : s.Serve run number v h halt h') :
    Truncated n (halt, h') (s.serve run' number v (h.capped n)) := by
  -- What the Fork would make of the stop is no longer asked once the tranche is cut short.
  cases serve with
  | unmade made =>
    have unmade : s.Serve run' number v (h.capped n) _ _ := .unmade made
    rw [unmade.eq]
    exact .whole (h := { h with ledger := _ }) unspent.within
  | stopped made ran reach =>
    rcases tranche_truncated truncating budgeted akin unspent ran with
      ⟨within, ran'⟩ | ⟨m', ran', cut⟩
    · rw [(Serve.stopped made ran' reach).eq]
      exact .whole (h := { h with ledger := _ }) within
    · rw [(Serve.stopped made ran' rfl).eq]
      exact .cut cut
  | @unread dish stop m progress e made ran reach get =>
    rcases tranche_truncated truncating budgeted akin unspent ran with
      ⟨within, ran'⟩ | ⟨m', ran', cut⟩
    · rw [(Serve.unread made ran' reach get).eq]
      change Truncated n _ (_, { h.capped n with ledger := remark number stop (m.ledger.capped n) })
      rw [remark_capped]
      refine .whole (h := { h with ledger := remark number stop m.ledger }) ?_
      rw [remark_steps]
      exact within
    · rw [(Serve.stopped made ran' rfl).eq]
      exact .cut (cut.grows (remark_grows _ _ _))
  | @brought dish d stop m progress w made ran reach get =>
    rcases tranche_truncated truncating budgeted akin unspent ran with
      ⟨within, ran'⟩ | ⟨m', ran', cut⟩
    · rw [(Serve.brought made ran' reach get).eq]
      change Truncated n _ (_, ⟨_, _, _, remark number stop (m.ledger.capped n)⟩)
      rw [remark_capped]
      refine .whole (h := ⟨_, _, _, remark number stop m.ledger⟩) ?_
      rw [remark_steps]
      exact within
    · rw [(Serve.stopped made ran' rfl).eq]
      exact .cut (cut.grows (remark_grows _ _ _))

theorem serveAll_truncated (truncating : Truncating n run run') (keeps : KeepsShape run)
    (growing : Growing run) (budgeted : Budgeted s.body) (number : Nat) (vs : List Value)
    (akin : OpsAkin s.body h.ops) (unspent : h.ledger.Unspent n) :
    Truncated n (s.serveAll run number vs h) (s.serveAll run' number vs (h.capped n)) := by
  induction vs generalizing number h with
  | nil => exact .whole unspent.within
  | cons v vs ih =>
    obtain ⟨halt, h₁, serve⟩ := serve_serve run s number v h
    have both := serve.truncated truncating budgeted akin unspent
    have grown := serve.grows growing
    unfold serveAll
    rw [serve.eq]
    generalize s.serve run' number v (h.capped n) = served' at both
    cases both with
    | whole within =>
      cases halt with
      | none =>
        exact ih (number + 1) (serve.akin keeps akin) ⟨grown.tallied unspent.tallied, within⟩
      | some halt => exact .whole within
    | @cut _ _ h' cut =>
      cases halt with
      | none =>
        -- Without the limit the Fork goes on, and what it adds lies beyond the cut.
        obtain ⟨halt₂, h₂, further⟩ :
            ∃ halt₂ h₂, s.serveAll run (number + 1) vs h₁ = (halt₂, h₂) := ⟨_, _, rfl⟩
        dsimp only
        rw [further]
        exact .cut (cut.grows (serveAll_grows growing (number + 1) vs further))
      | some halt => exact .cut cut

end Split

/-- A Fork under a limit does what it does without, or is halted by the limit. -/
theorem Serves.truncated {r : Except Halt Int} (truncating : Truncating n run run')
    (regular : Regular run) (growing : Growing run) (budgeted : Budgeted m.ops)
    (unspent : m.ledger.Unspent n) (serves : m.Serves run i op r k) :
    (k.ledger.steps ≤ n ∧ (m.capped n).Serves run' i op r (k.capped n)) ∨
      ∃ k', (m.capped n).Serves run' i op (.error (.overLimit n)) k' ∧
        k.ledger.Cut n k'.ledger := by
  have tranches : ∀ {v d s}, m.dish.get op.input = .ok (v, d) →
      (m.forking i d).split op = (.ok s, d) →
      Split.Truncated n (s.serveAll run 1 s.parts (s.opening m.ledger))
        (s.serveAll run' 1 s.parts (s.opening (m.capped n).ledger)) := by
    intro v d s get cut
    have subset : s.body ⊆ (m.forking i d).ops := split_subset cut
    have body : Budgeted s.body := budgeted.subset subset
    exact Split.serveAll_truncated truncating regular.shape growing body 1 _ (.refl _) unspent
  -- However the Fork would have ended, a tranche that is cut short halts it by the limit.
  cases serves with
  | unsplit get cut => exact .inl ⟨unspent.within, .unsplit get cut⟩
  | halted get cut served =>
    have both := tranches get cut
    rw [served] at both
    generalize hr : Split.serveAll run' _ 1 _ _ = served' at both
    cases both with
    | whole within => exact .inl ⟨within, Serves.halted (m := m.capped n) get cut hr⟩
    | cut cutting => exact .inr ⟨_, Serves.halted (m := m.capped n) get cut hr, cutting⟩
  | unset get cut served set =>
    have both := tranches get cut
    rw [served] at both
    generalize hr : Split.serveAll run' _ 1 _ _ = served' at both
    cases both with
    | whole within => exact .inl ⟨within, Serves.unset (m := m.capped n) get cut hr set⟩
    | cut cutting => exact .inr ⟨_, Serves.halted (m := m.capped n) get cut hr, cutting⟩
  | joined get cut served set =>
    have both := tranches get cut
    rw [served] at both
    generalize hr : Split.serveAll run' _ 1 _ _ = served' at both
    cases both with
    | whole within => exact .inl ⟨within, Serves.joined (m := m.capped n) get cut hr set⟩
    | cut cutting => exact .inr ⟨_, Serves.halted (m := m.capped n) get cut hr, cutting⟩

theorem exceeded_capped {l : Ledger} :
    (l.capped n).count.exceeded? = if n ≤ l.steps then some (n : Int) else none := by
  unfold Ledger.exceeded?
  by_cases spent : n ≤ l.steps
  · have excess : (n : Int) < ((l.steps + 1 : Nat) : Int) := by omega
    simp only [Ledger.count, Ledger.capped, Option.filter_some, excess, spent, decide_true, if_true]
  · have left : ¬(n : Int) < ((l.steps + 1 : Nat) : Int) := by omega
    simp only [Ledger.count, Ledger.capped, Option.filter_some, left, spent, decide_false, if_false,
      Bool.false_eq_true]

/-- Where a limit is spent, it ends the run before the operation is dispatched. -/
theorem truncated_spent {t : Turn} (ready : k.Ready start i op) (unspent : k.ledger.Unspent n)
    (spent : n ≤ k.ledger.steps) (grows : (k.enter i op).ledger.Grows t.machine.ledger) :
    Turn.Truncated n t ((k.capped n).round run' start i) := by
  have excess : (k.capped n).ledger.count.exceeded? = some (n : Int) := by
    change (k.ledger.capped n).count.exceeded? = _
    rw [exceeded_capped, if_pos spent]
  have ended : (k.capped n).Rounds run' start i _ :=
    .exceeded ready.here ready.enabled ready.goes excess
  rw [ended.eq]
  have exact_steps : k.ledger.steps = n := Nat.le_antisymm unspent.within spent
  have counted : n < (k.enter i op).ledger.steps := Nat.lt_succ_of_le spent
  refine .cut ⟨Nat.lt_of_lt_of_le counted grows.steps, ?_, ?_, ?_⟩
  · exact grows.registers
  · exact (Ledger.grows_dispatched k.ledger i op).events.trans grows.events
  · exact unspent.tallied.2.trans exact_steps

theorem Ready.capped (ready : k.Ready start i op) (left : k.ledger.steps < n) :
    (k.capped n).Ready start i op where
  here := ready.here
  enabled := ready.enabled
  goes := ready.goes
  allowed := by
    change (k.ledger.capped n).count.exceeded? = _
    rw [exceeded_capped, if_neg (Nat.not_le.mpr left)]

/-- A round under a limit does what it does without, or the limit ends the run in it. -/
theorem Rounds.truncated {t : Turn} (truncating : Truncating n run run') (regular : Regular run)
    (growing : Growing run) (budgeted : Budgeted k.ops) (unspent : k.ledger.Unspent n)
    (rounds : k.Rounds run start i t) :
    Turn.Truncated n t ((k.capped n).round run' start i) := by
  have entered : ∀ {op}, k.ledger.steps < n → (k.enter i op).ledger.Unspent n :=
    fun left => ⟨(Ledger.grows_dispatched _ _ _).tallied unspent.tallied, left⟩
  -- Only an operation that is set about takes a step; it is the same in both if a step is left.
  cases rounds with
  | completed beyond =>
    have ended : (k.capped n).Rounds run' start i _ := .completed beyond
    rw [ended.eq]
    exact .ended (m := k.note .completed) unspent.within
  | outside within missing =>
    have ended : (k.capped n).Rounds run' start i _ := .outside within missing
    rw [ended.eq]
    exact .ended unspent.within
  | @skipped op here disabled =>
    have skipped : (k.capped n).Rounds run' start i _ := .skipped here disabled
    rw [skipped.eq]
    exact .onward (m := k.note (.skipped i op)) unspent.within
  | paused here enabled pauses =>
    have ended : (k.capped n).Rounds run' start i _ := .paused here enabled pauses
    rw [ended.eq]
    exact .ended (m := k.note (.paused i)) unspent.within
  | exceeded here enabled goes excess =>
    -- The run without a limit never gets here.
    have limited : k.ledger.limit = _ := exceeded_limit (l := k.ledger.count) excess
    rw [unspent.tallied.1] at limited
    cases limited
  | @failed op f k' ready acts =>
    by_cases left : k.ledger.steps < n
    · have within : k'.ledger.steps ≤ n := by
        rw [acts.steps]
        exact left
      have both : (k.capped n).Rounds run' start i _ := .failed (ready.capped left) acts.capped
      rw [both.eq]
      exact conclude_truncated _ within
    · refine truncated_spent ready unspent (Nat.not_lt.mp left) ?_
      rw [conclude_ledger]
      exact acts.grows
  | @acted op j k' ready acts =>
    by_cases left : k.ledger.steps < n
    · have within : k'.ledger.steps ≤ n := by
        rw [acts.steps]
        exact left
      have both : (k.capped n).Rounds run' start i _ := .acted (ready.capped left) acts.capped
      rw [both.eq]
      exact .onward (m := { k' with last := _ }) within
    · exact truncated_spent ready unspent (Nat.not_lt.mp left) acts.grows
  | @halted op halt k' ready fork serves =>
    have grows := serves.grows growing
    by_cases left : k.ledger.steps < n
    · rcases serves.truncated (m := k.enter i op) truncating regular growing budgeted
        (entered left) with
        ⟨within, serves'⟩ | ⟨k₂, serves', cut⟩
      · have both : (k.capped n).Rounds run' start i _ := .halted (ready.capped left) fork serves'
        rw [both.eq]
        exact conclude_truncated _ within
      · have both : (k.capped n).Rounds run' start i _ := .halted (ready.capped left) fork serves'
        rw [both.eq]
        refine .cut ?_
        rw [conclude_ledger]
        exact cut
    · refine truncated_spent ready unspent (Nat.not_lt.mp left) ?_
      rw [conclude_ledger]
      exact grows
  | @served op j k' ready fork serves =>
    have grows := serves.grows growing
    by_cases left : k.ledger.steps < n
    · rcases serves.truncated (m := k.enter i op) truncating regular growing budgeted
        (entered left) with
        ⟨within, serves'⟩ | ⟨k₂, serves', cut⟩
      · have both : (k.capped n).Rounds run' start i _ := .served (ready.capped left) fork serves'
        rw [both.eq]
        exact .onward (m := { k' with last := _ }) within
      · have both : (k.capped n).Rounds run' start i _ := .halted (ready.capped left) fork serves'
        rw [both.eq]
        exact .cut cut
    · exact truncated_spent ready unspent (Nat.not_lt.mp left) grows

theorem drive_truncated (truncating : Truncating n run run') (regular : Regular run)
    (growing : Growing run) (budgeted : Budgeted m.ops) (fuel : Nat) (inv : Keeps start m i k)
    (unspent : k.ledger.Unspent n) :
    Turn.Truncated n (.ended (k.drive run start fuel i).1 (k.drive run start fuel i).2)
      (.ended ((k.capped n).drive run' start fuel i).1 ((k.capped n).drive run' start fuel i).2) := by
  induction fuel generalizing i k with
  | zero => exact .ended unspent.within
  | succ fuel ih =>
    obtain ⟨t, rounds⟩ := rounds_round run start i k
    have kept := places.round regular inv rounds
    have grown := rounds.grows growing
    have both := rounds.truncated truncating regular growing (budgeted.akin inv.ops) unspent
    unfold drive
    rw [rounds.eq]
    generalize (k.capped n).round run' start i = t' at both
    cases both with
    | ended within => exact .ended within
    | onward within => exact ih kept ⟨grown.tallied unspent.tallied, within⟩
    | @cut _ k' cut =>
      cases t with
      | ended stop k₁ => exact .cut cut
      | onward j k₁ =>
        -- The run without a limit goes on after the round in which the other one was cut short.
        have begun : k₁.ledger.Grows k₁.ledger := .refl _
        have further : k₁.ledger.Grows (k₁.drive run start fuel j).2.ledger :=
          growth.drive growing (m := k₁) fuel begun
        exact .cut (cut.grows further)

theorem execute_truncated (depth : Nat) (start : Int) (budgeted : Budgeted m.ops)
    (unspent : m.ledger.Unspent n) :
    Turn.Truncated n (.ended (m.execute depth start).1 (m.execute depth start).2)
      (.ended ((m.capped n).execute depth start).1 ((m.capped n).execute depth start).2) := by
  induction depth generalizing start m with
  | zero => exact .ended unspent.within
  | succ depth ih =>
    have truncating : Truncating n (execute depth 0) (execute depth 0) :=
      fun child budgeted' unspent' => ih 0 budgeted' unspent'
    have begun : (m.note (.started m.ops.length start)).ledger.Unspent n := unspent.note _
    -- With whole budgets the same rounds are granted under a limit as without one.
    have granted : Run.rounds (m.capped n).ops (m.capped n).ledger.limit =
        Run.rounds m.ops m.ledger.limit := by
      rw [rounds_budgeted _ budgeted]
      exact rounds_budgeted _ budgeted
    unfold execute
    rw [granted]
    exact drive_truncated truncating (regular_execute depth) (growth.upholds depth) budgeted _
      (places.begins trivial) begun

/-- A step limit only truncates a run. If the run without a limit dispatches no more operations than the
limit allows, the run under the limit is the same in everything; otherwise the limit is what it ends
with, whatever Forks it is in, once it has dispatched the first operations of the run without. -/
theorem limit_truncates (ops : List Operation) (dish : Dish) (start : Int) (n : Nat)
    (budgeted : Budgeted ops) :
    let whole := (fresh ops dish none).run start
    let limited := (fresh ops dish (some n)).run start
    whole.1 ≠ .unfinished ∧ whole.2.ledger.dispatches.length = whole.2.ledger.steps ∧
      (whole.2.ledger.steps ≤ n → limited = (whole.1, whole.2.capped n)) ∧
      (n < whole.2.ledger.steps → limited.1 = .overLimit n ∧
        limited.2.ledger.dispatches = whole.2.ledger.dispatches.take n ∧
        limited.2.ledger.publications <+: whole.2.ledger.publications ∧
        limited.2.ledger.registers <+: whole.2.ledger.registers) := by
  intro whole limited
  have opened : (fresh ops dish none).ledger.Unspent n := ⟨⟨rfl, rfl⟩, Nat.zero_le n⟩
  have grown : (fresh ops dish none).ledger.Grows whole.2.ledger := growth.run trivial
  have both : Turn.Truncated n (.ended whole.1 whole.2) (.ended limited.1 limited.2) :=
    execute_truncated (ops.length + 2) start budgeted opened
  refine ⟨run_finishes start budgeted, (grown.tallied opened.tallied).2, ?_, ?_⟩
  · intro within
    generalize limited = limited' at both
    generalize whole = whole' at both within
    obtain ⟨stop', m'⟩ := limited'
    cases both with
    | ended within => rfl
    | cut cut => exact absurd cut.excess (Nat.not_lt.mpr within)
  · intro excess
    generalize limited = limited' at both
    generalize whole = whole' at both excess
    obtain ⟨stop', m'⟩ := limited'
    cases both with
    | ended within => exact absurd excess (Nat.not_lt.mpr within)
    | cut cut => exact ⟨rfl, cut.take, cut.events.filterMap _, cut.registers⟩

theorem limit_truncates_twice : Budgeted twice.ops ∧ (twice.run 0).2.ledger.steps = 4 ∧
    (fresh twice.ops twice.dish (some 4)).run 0 = ((twice.run 0).1, (twice.run 0).2.capped 4) ∧
    ((fresh twice.ops twice.dish (some 2)).run 0).1 = .overLimit 2 ∧
    ((fresh twice.ops twice.dish (some 2)).run 0).2.ledger.dispatches =
      (twice.run 0).2.ledger.dispatches.take 2 := by
  have budgeted : Budgeted twice.ops := by decide +kernel
  have steps : (twice.run 0).2.ledger.steps = 4 := by decide +kernel
  have enough := limit_truncates twice.ops twice.dish 0 4 budgeted
  have short := limit_truncates twice.ops twice.dish 0 2 budgeted
  have cut := short.2.2.2 (by change 2 < (twice.run 0).2.ledger.steps; omega)
  exact ⟨budgeted, steps, enough.2.2.1 (Nat.le_of_eq steps), cut.1, cut.2.1⟩

end Machine

end Kitchen.Run

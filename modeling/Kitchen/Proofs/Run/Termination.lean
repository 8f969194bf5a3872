import Kitchen.Proofs.Run.Budget
import Kitchen.Proofs.Run.Depth
import Kitchen.Proofs.Run.Growth

/-!
Executions whose budgets are bounded, or that are under a limit, come to an end. A round that goes on
moves ahead, takes one of a bounded number of jumps or uses up a step, and a Fork runs fewer operations
than its list has.
-/
namespace Kitchen.Run.Machine

variable {run : Machine → Stop × Machine} {start i j : Int} {op : Operation} {m k k' child : Machine}
  {t : Turn}

-- What a round that goes on from one place to another has done: it moved ahead, or it took a jump that leaves
-- the number of jumps within a bound.
inductive Advances (most : Nat) (i : Int) (k : Machine) (j : Int) (k' : Machine) : Prop where
  | ahead (within : i < k.ops.length) (further : i < j) (jumps : k'.frame.jumps = k.frame.jumps)
  | back (within : i < k.ops.length) (front : 0 ≤ j) (jumps : k'.frame.jumps = k.frame.jumps + 1)
      (allowed : k.frame.jumps < most)

/-- A round moves ahead or takes a jump, unless it ends the execution. -/
theorem advances {most : Nat} (regular : Regular run) (spends : Spends most k.ops)
    (rounds : k.Rounds run start i t) : t.Meets (Advances most i k) (fun _ _ => True) := by
  cases rounds with
  | skipped here disabled => exact .ahead (opAt_lt here) (Int.lt_succ i) rfl
  | failed ready acts => exact conclude_meets fun _ _ => trivial
  | @acted op j k' ready acts =>
    have within := opAt_lt ready.here
    -- It stays where it is, goes to the end, or jumps.
    rcases acts.goes with ⟨rfl, jumps⟩ | ⟨rfl, jumps⟩ |
      ⟨label, budget, place, rfl, found, jumps, here, left⟩
    · exact .ahead within (Int.lt_succ j) jumps
    · exact .ahead within (Int.lt_add_one_of_le (Int.le_of_lt within)) jumps
    · have allowed := spends op (opAt_mem ready.here) ready.enabled budget here _ left
      exact .back within (by omega) jumps allowed
  | halted ready fork serves => exact conclude_meets fun _ _ => trivial
  | @served op j k' ready fork serves =>
    have within := opAt_lt ready.here
    generalize hr : Except.ok j = r at serves
    cases serves with
    | joined get cut served set =>
      cases hr
      -- The tranches never stop before the operation after the Fork.
      have far := Split.serveAll_reach regular served
      exact .ahead within (by omega) rfl
    | _ => cases hr
  | _ => trivial

/-- A round that ends an execution finishes it if the tranches of its Fork finish. -/
theorem Rounds.finishes (rounds : k.Rounds run start i t)
    (finishes : ∀ child, k.Opens run start i child → (run child).1 ≠ .unfinished) :
    t.Meets (fun _ _ => True) (fun stop _ => stop ≠ .unfinished) := by
  cases t with
  | onward j k' => trivial
  | ended stop k' =>
    rintro rfl
    generalize hs : Stop.unfinished = stop at rounds
    cases rounds.ending with
    | fatal opens fatal => exact finishes _ opens hs.symm
    | _ => cases hs

-- Rounds enough for an execution at a place, by a store that each move back draws on: a pass over the whole
-- list for each time that it can be drawn on, and what is left of this pass.
def measure (store : Machine → Nat) (i : Int) (k : Machine) : Nat :=
  store k * (k.ops.length + 1) + (k.ops.length - i).toNat

section Measure

variable {store : Machine → Nat}

theorem measure_ahead (length : k'.ops.length = k.ops.length) (within : i < k.ops.length)
    (further : i < j) (kept : store k' ≤ store k) : measure store j k' < measure store i k := by
  unfold measure
  rw [length]
  have passes : store k' * (k.ops.length + 1) ≤ store k * (k.ops.length + 1) :=
    Nat.mul_le_mul_right _ kept
  omega

/-- What is drawn from the store pays for a whole pass, whatever place the move leads to. -/
theorem measure_back (length : k'.ops.length = k.ops.length) (within : i < k.ops.length)
    (front : 0 ≤ j) (paid : store k' < store k) : measure store j k' < measure store i k := by
  unfold measure
  rw [length]
  have passes : (store k' + 1) * (k.ops.length + 1) ≤ store k * (k.ops.length + 1) :=
    Nat.mul_le_mul_right _ paid
  rw [Nat.add_mul, Nat.one_mul] at passes
  omega

theorem measure_lt {most : Nat} (full : store m ≤ most) (inside : -(m.ops.length : Int) ≤ start) :
    measure store start m < (most + 1) * (2 * m.ops.length + 2) := by
  unfold measure
  have passes : store m * (m.ops.length + 1) ≤ most * (2 * m.ops.length + 2) :=
    Nat.mul_le_mul full (by omega)
  rw [Nat.add_mul, Nat.one_mul]
  omega

end Measure

def jumpsLeft (most : Nat) (k : Machine) : Nat := most - k.frame.jumps

def stepsLeft (limit : Int) (k : Machine) : Nat := limit.toNat + 1 - k.ledger.steps

theorem Advances.lowers {most : Nat} (advances : Advances most i k j k')
    (length : k'.ops.length = k.ops.length) :
    measure (jumpsLeft most) j k' < measure (jumpsLeft most) i k := by
  cases advances with
  | ahead within further jumps =>
    exact measure_ahead length within further (by unfold jumpsLeft; omega)
  | back within front jumps allowed =>
    exact measure_back length within front (by unfold jumpsLeft; omega)

/-- What is carried out is never followed by a place before both its own and the front. -/
theorem Completes.moves (regular : Regular run) (completes : m.Completes run i op j k) :
    i ≤ j ∨ 0 ≤ j := by
  cases completes with
  | acts acts =>
    rcases acts.goes with ⟨rfl, -⟩ | ⟨rfl, -⟩ | ⟨label, budget, place, rfl, -⟩
    · exact .inl (Int.le_refl j)
    · exact .inr (Int.natCast_nonneg _)
    · exact .inr (Int.natCast_nonneg _)
  | serves fork serves =>
    left
    generalize hr : Except.ok j = r at serves
    cases serves with
    | joined get cut served set =>
      cases hr
      have far := Split.serveAll_reach regular served
      omega
    | _ => cases hr

theorem Completes.grows (growing : Growing run) (completes : m.Completes run i op j k) :
    m.ledger.Grows k.ledger := by
  cases completes with
  | acts acts => exact acts.grows
  | serves fork serves => exact serves.grows growing

/-- Under a limit, a round passes over its operation or uses up a step. -/
theorem Rounds.uses {limit : Int} (regular : Regular run) (growing : Growing run)
    (limited : k.ledger.limit = some limit) (length : k'.ops.length = k.ops.length)
    (rounds : k.Rounds run start i (.onward j k')) :
    measure (stepsLeft limit) j k' < measure (stepsLeft limit) i k := by
  rcases rounds.onward with
    ⟨op, here, disabled, rfl, rfl⟩ | ⟨op, j', k₁, ready, completes, rfl, rfl⟩
  · exact measure_ahead length (opAt_lt here) (Int.lt_succ i) (Nat.le_refl _)
  · have within := opAt_lt ready.here
    have steps : k.ledger.steps + 1 ≤ k₁.ledger.steps := (completes.grows growing).steps
    -- An operation is dispatched only if a step is left for it.
    have left : ¬limit < (k.ledger.steps + 1 : Nat) := by
      have allowed : (k.ledger.limit.filter fun n : Int => n < (k.ledger.steps + 1 : Nat)) = none :=
        ready.allowed
      rw [limited] at allowed
      simpa using allowed
    have used : stepsLeft limit k₁ < stepsLeft limit k := by
      unfold stepsLeft
      omega
    rcases completes.moves regular with ahead | front
    · exact measure_ahead length within (by omega) (Nat.le_of_lt used)
    · exact measure_back length within (by omega) used

/-- An execution finishes within as many rounds as a measure allows that every round lowers. -/
theorem drive_finishes {μ : Int → Machine → Nat} (regular : Regular run) (growing : Growing run)
    (fuel : Nat) (inv : Keeps start m i k) (grown : m.ledger.Grows k.ledger)
    (enough : μ i k < fuel)
    (lowers : ∀ {i j k k'}, Keeps start m i k → m.ledger.Grows k.ledger →
      k'.ops.length = k.ops.length → k.Rounds run start i (.onward j k') → μ j k' < μ i k)
    (finishes : ∀ i k child, Keeps start m i k → m.ledger.Grows k.ledger →
      k.Opens run start i child → (run child).1 ≠ .unfinished) :
    (k.drive run start fuel i).1 ≠ .unfinished := by
  induction fuel generalizing i k with
  | zero => omega
  | succ fuel ih =>
    obtain ⟨t, rounds⟩ := rounds_round run start i k
    have kept := places.round regular inv rounds
    have finished := rounds.finishes (finishes i k · inv grown)
    have grown' := grown.trans (rounds.grows growing)
    unfold drive
    rw [rounds.eq]
    cases t with
    | ended stop k' => exact finished
    | onward j k' =>
      have length : k'.ops.length = k.ops.length := kept.ops.length_eq.symm.trans inv.ops.length_eq
      have less := lowers inv grown length rounds
      exact ih kept grown' (by omega)

theorem rounds_pos (ops : List Operation) (limit : Option Int) : 0 < Run.rounds ops limit := by
  unfold Run.rounds
  dsimp only
  split
  · exact Nat.mul_pos (Nat.succ_pos _) (Nat.succ_pos _)
  · exact Nat.mul_pos (Nat.succ_pos _) (Nat.succ_pos _)
  · exact Nat.lt_of_lt_of_le (Nat.succ_pos _) (Nat.le_max_right _ _)

theorem rounds_budgeted {ops : List Operation} (limit : Option Int) (budgeted : Budgeted ops) :
    Run.rounds ops limit = (mostJumps ops + 1) * (2 * ops.length + 2) := by
  unfold Run.rounds
  simp only [budgeted.jumpBound]

/-- A place too far before the front stands for none. -/
theorem opAt_outside (outside : i < -(m.ops.length : Int)) : m.opAt? i = none := by
  have negative : i < 0 := by omega
  have before : ¬(0 ≤ i + m.ops.length ∧ i + m.ops.length < m.ops.length) := by omega
  simp only [opAt?, place?, if_pos negative, if_neg before, Option.bind_none]

-- What bounds the rounds of an execution: its budgets of jumps, or the limit on its steps.
def Bounded (m : Machine) : Prop :=
  (jumpBound m.ops).isSome ∨ m.ledger.limit.isSome

/-- Executions finish if the depth exceeds the number of operations, whatever place they begin at. -/
theorem execute_finishes {depth : Nat} (bounded : Bounded m)
    (enough : m.ops.length + (if start < 0 then 1 else 0) < depth) :
    (m.execute depth start).1 ≠ .unfinished := by
  induction depth generalizing start m with
  | zero => omega
  | succ depth ih =>
    have regular := regular_execute depth
    have growing : Growing (execute depth 0) := growth.upholds depth
    have begun : m.ledger.Grows (m.note (.started m.ops.length start)).ledger := Ledger.grows_note _ _
    -- A tranche needs less depth, and is bounded by the same budgets or the same limit.
    have finishes : ∀ i k child, Keeps start m i k → m.ledger.Grows k.ledger →
        k.Opens (execute depth 0) start i child → (execute depth 0 child).1 ≠ .unfinished := by
      intro i k child inv grown opens
      refine ih ?_ (opens.shallower regular inv enough)
      rcases bounded with jumps | limit
      · exact .inl (jumpBound_within inv.ops (opens.subset regular.shape) jumps)
      · right
        rw [(opens.grows growing).limit, grown.limit]
        exact limit
    unfold execute
    by_cases inside : -(m.ops.length : Int) ≤ start
    · -- Either what is left of the budgets of jumps pays for the rounds, or what is left of the limit.
      cases jumps : jumpBound m.ops with
      | some most =>
        have granted : Run.rounds m.ops m.ledger.limit = (most + 1) * (2 * m.ops.length + 2) := by
          simp only [Run.rounds, jumps]
        have spends : Spends most m.ops := spends_jumpBound jumps
        rw [granted]
        refine drive_finishes (μ := measure (jumpsLeft most)) regular growing _
          (places.begins trivial) begun ?_ ?_ finishes
        · exact measure_lt (m := m.note _) (Nat.sub_le _ _) inside
        · intro i j k k' inv grown length rounds
          exact (advances regular (spends.akin inv.ops) rounds).lowers length
      | none =>
        have limited : m.ledger.limit.isSome := bounded.resolve_left (by rw [jumps]; decide)
        obtain ⟨limit, here⟩ := Option.isSome_iff_exists.mp limited
        have granted : Run.rounds m.ops m.ledger.limit = (limit.toNat + 2) * (2 * m.ops.length + 2) := by
          simp only [Run.rounds, jumps, here]
        rw [granted]
        refine drive_finishes (μ := measure (stepsLeft limit)) regular growing _
          (places.begins trivial) begun ?_ ?_ finishes
        · exact measure_lt (m := m.note _) (Nat.sub_le _ _) inside
        · intro i j k k' inv grown length rounds
          exact rounds.uses regular growing (grown.limit.trans here) length
    · -- From a place that is none, the first round ends the execution.
      obtain ⟨fuel, granted⟩ : ∃ fuel, Run.rounds m.ops m.ledger.limit = fuel + 1 :=
        Nat.exists_eq_succ_of_ne_zero (Nat.ne_of_gt (rounds_pos _ _))
      have ended : (m.note (.started m.ops.length start)).round (execute depth 0) start start =
          .ended .outOfRange (m.note (.started m.ops.length start)) :=
        Rounds.eq (.outside (by change start < (m.ops.length : Int); omega)
          (opAt_outside (m := m.note _) (Int.not_le.mp inside)))
      rw [granted, drive, ended]
      exact Stop.noConfusion

theorem run_bounded (start : Int) (bounded : Bounded m) : (m.run start).1 ≠ .unfinished :=
  execute_finishes bounded (by split <;> omega)

theorem run_finishes (start : Int) (budgeted : Budgeted m.ops) : (m.run start).1 ≠ .unfinished :=
  run_bounded start (.inl (by rw [budgeted.jumpBound]; rfl))

-- Before a round, after so many operations were dispatched: each jump that was taken leads to one more pass
-- over the list at most, and a pass dispatches no operation twice.
def Paced (m : Machine) (n : Nat) (i : Int) (k : Machine) : Prop :=
  ∃ taken, k.frame.jumps = m.frame.jumps + taken ∧ taken ≤ mostJumps m.ops ∧
    n ≤ taken * m.ops.length + min i.toNat m.ops.length

theorem Advances.paced {n : Nat} (paced : Paced m n i k) (front : 0 ≤ i)
    (length : m.ops.length = k.ops.length) (advances : Advances (mostJumps m.ops) i k j k') :
    Paced m (n + 1) j k' := by
  obtain ⟨taken, jumps, allowed, dispatched⟩ := paced
  cases advances with
  | ahead within further same =>
    exact ⟨taken, same.trans jumps, allowed, by omega⟩
  | back within front same less =>
    refine ⟨taken + 1, by omega, by omega, ?_⟩
    rw [Nat.add_mul, Nat.one_mul]
    omega

theorem Passes.paced {n : Nat} (budgeted : Budgeted m.ops) (front : 0 ≤ start)
    (passes : Passes start m n i k) : Paced m n i k := by
  induction passes with
  | begins => exact ⟨0, rfl, Nat.zero_le _, Nat.zero_le _⟩
  | @skips n i k op earlier here disabled ih =>
    obtain ⟨taken, jumps, allowed, dispatched⟩ := ih
    have ahead := (places.passes trivial earlier).front front
    exact ⟨taken, jumps, allowed, by omega⟩
  | @dispatches n i j k k' op earlier ready onward ih =>
    have inv := places.passes trivial earlier
    have advanced := advances regular_run (budgeted.spends.akin inv.ops) (rounds_iff.mpr onward)
    exact advanced.paced ih (inv.front front) inv.ops.length_eq

theorem Arises.front {start' : Int} {m' : Machine} (front : 0 ≤ start)
    (arises : Arises start m start' m') : 0 ≤ start' := by
  cases arises with
  | outermost => exact front
  | tranche outer passes opens => exact Int.le_refl 0

/-- Forks hand on no other budgets than their own list has. -/
theorem Arises.budgeted {start' : Int} {m' : Machine} (budgeted : Budgeted m.ops)
    (arises : Arises start m start' m') : Budgeted m'.ops := by
  refine arises.all ?_ budgeted
  intro a b same whole budget here
  obtain ⟨budget₀, there, kept⟩ := budget_akin same here
  rw [kept.whole]
  exact whole budget₀ there

/-- A run whose budgets are whole numbers finishes. Each execution that arises in it takes no more jumps
than the greatest budget in its list allows, and for each of these jumps, and once besides, it dispatches
no more operations than the list has, the one that ends it included. -/
theorem run_within_budget (start : Int) (m : Machine) (front : 0 ≤ start)
    (budgeted : Budgeted m.ops) :
    (m.run start).1 ≠ .unfinished ∧
      ∀ start' m', Arises start m start' m' → (m'.run start').1 ≠ .unfinished ∧
        ∀ n i k, Passes start' m' n i k →
          k.frame.jumps ≤ m'.frame.jumps + mostJumps m'.ops ∧
          n ≤ (mostJumps m'.ops + 1) * m'.ops.length ∧
          ∀ op, k.Ready start' i op → n + 1 ≤ (mostJumps m'.ops + 1) * m'.ops.length := by
  refine ⟨run_finishes start budgeted, ?_⟩
  intro start' m' arises
  have front' := arises.front front
  have budgeted' := arises.budgeted budgeted
  refine ⟨run_finishes start' budgeted', ?_⟩
  intro n i k passes
  obtain ⟨taken, jumps, allowed, dispatched⟩ := passes.paced budgeted' front'
  have inv := places.passes trivial passes
  have ahead := inv.front front'
  have length : m'.ops.length = k.ops.length := inv.ops.length_eq
  have earlier : taken * m'.ops.length ≤ mostJumps m'.ops * m'.ops.length :=
    Nat.mul_le_mul_right _ allowed
  rw [Nat.add_mul, Nat.one_mul]
  refine ⟨by omega, by omega, ?_⟩
  -- A further dispatch is still within the pass: its place is in the list.
  intro op ready
  have within := opAt_lt ready.here
  omega

def twice : Machine :=
  fresh [⟨"Label", [.text "again"], "string", "string", false, false, none⟩,
    ⟨"Jump", [.text "again", .int 2], "string", "string", false, false, none⟩]
    ⟨.text "", "string"⟩ none

theorem twice_within_budget : (0 : Int) ≤ 0 ∧ Budgeted twice.ops ∧
    (twice.run 0).1 ≠ .unfinished ∧
      ∀ n i k, Passes 0 twice n i k → k.frame.jumps ≤ 2 ∧ n ≤ 6 := by
  have budgeted : Budgeted twice.ops := by decide +kernel
  have most : mostJumps twice.ops = 2 := by decide +kernel
  have within := run_within_budget 0 twice (by decide) budgeted
  refine ⟨by decide, budgeted, within.1, ?_⟩
  intro n i k passes
  have paced := (within.2 0 twice .outermost).2 n i k passes
  rw [most] at paced
  exact ⟨Nat.le_trans paced.1 (by decide), Nat.le_trans paced.2.1 (by decide)⟩

end Kitchen.Run.Machine

import Kitchen.Proofs.Run.Termination

namespace Kitchen.Run

-- No enabled operation jumps.
def Straight (ops : List Operation) : Prop :=
  ∀ op ∈ ops, op.does .jump = false ∧ op.does .conditionalJump = false

instance (ops : List Operation) : Decidable (Straight ops) :=
  inferInstanceAs (Decidable (∀ op ∈ ops, op.does .jump = false ∧ op.does .conditionalJump = false))

theorem Straight.akin {ops ops' : List Operation} (straight : Straight ops)
    (akin : Machine.OpsAkin ops ops') : Straight ops' := by
  intro op mem
  obtain ⟨op₀, mem₀, same⟩ := akin.back mem
  rw [same.does, same.does]
  exact straight op₀ mem₀

theorem Straight.subset {ops ops' : List Operation} (straight : Straight ops) (h : ops' ⊆ ops) :
    Straight ops' :=
  fun op mem => straight op (h mem)

/-- What is carried out in such a list is no jump. -/
theorem Straight.jumpless {ops : List Operation} {op : Operation} (straight : Straight ops) (mem : op ∈ ops)
    (enabled : op.disabled = false) :
    op.primitive? ≠ some .jump ∧ op.primitive? ≠ some .conditionalJump := by
  obtain ⟨jump, conditional⟩ := straight op mem
  constructor
  · intro primitive
    rw [Operation.does_iff.mpr ⟨primitive, enabled⟩] at jump
    cases jump
  · intro primitive
    rw [Operation.does_iff.mpr ⟨primitive, enabled⟩] at conditional
    cases conditional

theorem Straight.spends {ops : List Operation} (straight : Straight ops) : Spends 0 ops := by
  intro op mem enabled budget here
  obtain ⟨jump, conditional⟩ := straight.jumpless mem enabled
  unfold Operation.budget? at here
  split at here
  · next primitive => exact absurd primitive jump
  · next primitive => exact absurd primitive conditional
  · cases here

/-- However a run is bounded, it is granted rounds for more than one pass over its list. -/
theorem span_le_rounds (ops : List Operation) (limit : Option Int) :
    2 * ops.length + 2 ≤ rounds ops limit := by
  unfold rounds
  dsimp only
  split
  · exact Nat.le_mul_of_pos_left _ (Nat.succ_pos _)
  · exact Nat.le_mul_of_pos_left _ (Nat.succ_pos _)
  · exact Nat.le_max_right _ _

namespace Machine

variable {start i : Int} {m k k' : Machine} {stop : Stop} {n : Nat}

/-- Executions of such lists from the front finish if the depth exceeds the number of operations. -/
theorem straight_finishes {depth : Nat} (straight : Straight m.ops) (front : 0 ≤ start)
    (enough : m.ops.length < depth) : (m.execute depth start).1 ≠ .unfinished := by
  induction depth generalizing start m with
  | zero => omega
  | succ depth ih =>
    have regular := regular_execute depth
    have growing : Growing (execute depth 0) := growth.upholds depth
    have begun : m.ledger.Grows (m.note (.started m.ops.length start)).ledger := Ledger.grows_note _ _
    have finishes : ∀ i k child, Keeps start m i k → m.ledger.Grows k.ledger →
        k.Opens (execute depth 0) start i child → (execute depth 0 child).1 ≠ .unfinished := by
      intro i k child inv _ opens
      have length : m.ops.length = k.ops.length := inv.ops.length_eq
      have shorter := (opens.length regular.shape).2 (inv.front front)
      exact ih ((straight.akin inv.ops).subset (opens.subset regular.shape)) (Int.le_refl 0) (by omega)
    unfold execute
    -- No jump is left from the beginning on, so one pass over the list is all that is needed.
    refine drive_finishes (μ := measure (jumpsLeft 0)) regular growing _ (places.begins trivial) begun
      ?_ ?_ finishes
    · have pass : measure (jumpsLeft 0) start (m.note (.started m.ops.length start)) ≤ m.ops.length := by
        unfold measure jumpsLeft
        rw [Nat.zero_sub, Nat.zero_mul]
        change 0 + ((m.ops.length : Int) - start).toNat ≤ m.ops.length
        omega
      have granted := span_le_rounds m.ops m.ledger.limit
      omega
    · intro i j k k' inv _ length rounds
      exact (advances regular (straight.spends.akin inv.ops) rounds).lowers length

theorem straight_run (straight : Straight m.ops) : (m.run 0).1 ≠ .unfinished :=
  straight_finishes straight (Int.le_refl 0) (by omega)

/-- Without a limit, such a run stops at a place of its list or at its end, or is broken at a place. -/
theorem straight_stops (straight : Straight m.ops) (free : m.ledger.limit = none) :
    (∃ p, (m.run 0).1 = .at p ∧ 0 ≤ p ∧ p ≤ m.ops.length) ∨
      ∃ b, (m.run 0).1 = .broken b ∧ 0 ≤ b.place ∧ b.place < m.ops.length := by
  have finished := straight_run straight
  have lies := regular_run.lies m
  have limit : ∀ l, (m.run 0).1 = .overLimit l → m.ledger.limit = some l := (limited.run trivial).2
  cases stop : (m.run 0).1 with
  | «at» p =>
    rw [stop] at lies
    exact .inl ⟨p, rfl, lies⟩
  | broken b =>
    rw [stop] at lies
    obtain ⟨front, op, here, -⟩ := lies
    have within := (List.getElem?_eq_some_iff.mp here).1
    exact .inr ⟨b, rfl, front, by omega⟩
  | overLimit l =>
    have limited := limit l stop
    rw [free] at limited
    cases limited
  | outOfRange =>
    rw [stop] at lies
    exact lies.elim
  | unfinished => exact absurd stop finished

/-- Where an execution comes by, it goes on as if it had begun there, if it has rounds left. -/
theorem Passes.drive (passes : Passes start m n i k) :
    ∃ used, ∀ more,
      (m.note (.started m.ops.length start)).drive (Machine.run 0) start (used + more) start =
        k.drive (Machine.run 0) start more i := by
  let begun := m.note (.started m.ops.length start)
  -- One more round is used where the execution comes by next.
  have onward : ∀ {used : Nat} {i j : Int} {k k' : Machine},
      (∀ more, begun.drive (Machine.run 0) start (used + more) start =
        k.drive (Machine.run 0) start more i) →
      k.round (Machine.run 0) start i = .onward j k' →
      ∀ more, begun.drive (Machine.run 0) start (used + 1 + more) start =
        k'.drive (Machine.run 0) start more j := by
    intro used i j k k' sofar round more
    rw [Nat.add_assoc, sofar, Nat.add_comm 1 more, Machine.drive, round]
  induction passes with
  | begins => exact ⟨0, fun more => by rw [Nat.zero_add]⟩
  | skips earlier here disabled ih =>
    obtain ⟨used, sofar⟩ := ih
    exact ⟨used + 1, onward sofar (Rounds.skipped here disabled).eq⟩
  | dispatches earlier ready round ih =>
    obtain ⟨used, sofar⟩ := ih
    exact ⟨used + 1, onward sofar round⟩

/-- A run that finishes ends with what one of its rounds ended with. -/
theorem Passes.ends (passes : Passes start m n i k) (finished : (m.run start).1 ≠ .unfinished)
    (ended : k.round (Machine.run 0) start i = .ended stop k') (inside : stop ≠ .unfinished) :
    m.run start = (stop, k') := by
  obtain ⟨used, sofar⟩ := passes.drive
  have here : (m.note (.started m.ops.length start)).drive (Machine.run 0) start (used + 1) start =
      (stop, k') := by
    rw [sofar 1, Machine.drive, ended]
  have finished' : ((m.note (.started m.ops.length start)).drive (Machine.run 0) start (used + 1)
      start).1 ≠ .unfinished := by
    rw [here]
    exact inside
  rw [run_eq_drive] at finished ⊢
  exact (drive_agree finished finished').trans here

end Machine

end Kitchen.Run

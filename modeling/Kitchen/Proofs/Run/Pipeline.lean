import Kitchen.Proofs.Run.Straight

namespace Kitchen

/-- An ordinary operation makes the dish that the value of its transform is set as. -/
theorem Operation.produce_of_run {op : Operation} {t : Transform} {v out : Value} {d : Dish}
    (ordinary : op.primitive? = none) (handler : op.transform = some t) (ran : t.run v op.args = .ok out)
    (set : Dish.set out op.output = .ok d) : op.produce v = .ok d := by
  have made : op.apply v = .ok out := by
    unfold Operation.apply
    rw [ordinary, handler]
    exact ran
  unfold Operation.produce
  rw [made]
  change (Dish.set out op.output).mapError Failure.ofDish = _
  rw [set]
  rfl

namespace Run

-- Operations that no primitive is among, that all are carried out and that nothing holds up turn a dish into
-- another one: each reads what it is given under its input type and makes the dish for the next one.
inductive Flows : List Operation → Dish → Dish → Prop where
  | still (d : Dish) : Flows [] d d
  | onward {op : Operation} {ops : List Operation} {v : Value} {d read made out : Dish}
      (ordinary : op.primitive? = none) (enabled : op.disabled = false) (free : op.pauses = false)
      (get : d.get op.input = .ok (v, read)) (makes : op.produce v = .ok made)
      (rest : Flows ops made out) : Flows (op :: ops) d out

theorem Flows.ordinary {ops : List Operation} {d out : Dish} (flows : Flows ops d out) :
    ∀ op ∈ ops, op.primitive? = none := by
  induction flows with
  | still => exact fun op mem => absurd mem List.not_mem_nil
  | onward ordinary _ _ _ _ _ ih => exact List.forall_mem_cons.mpr ⟨ordinary, ih⟩

theorem Flows.straight {ops : List Operation} {d out : Dish} (flows : Flows ops d out) : Straight ops := by
  intro op mem
  have ordinary := flows.ordinary op mem
  have jumpless : ∀ p, op.does p = false := by
    intro p
    unfold Operation.does
    rw [ordinary]
    rfl
  exact ⟨jumpless _, jumpless _⟩

namespace Machine

variable {m k : Machine} {before ops : List Operation} {d out : Dish} {n : Nat}

/-- An execution from the front that has come to the first of such operations comes behind the last one,
with what they make of the dish. -/
theorem Passes.flows (flows : Flows ops d out) (list : m.ops = before ++ ops)
    (passes : Passes 0 m n before.length k) (same : k.ops = m.ops) (dish : k.dish = d)
    (unlimited : k.ledger.limit = none) :
    ∃ n' k', Passes 0 m n' m.ops.length k' ∧ k'.ops = m.ops ∧ k'.dish = out := by
  -- The induction is on the operations to come; those that were carried out pass over to the front part.
  induction flows generalizing before n k with
  | still d =>
    rw [List.append_nil] at list
    refine ⟨n, k, ?_, same, dish⟩
    rw [list]
    exact passes
  | @onward op ops v d read made out ordinary enabled free get makes _ ih =>
    have here : k.opAt? before.length = some op := by
      have inside : (before.length : Int) < k.ops.length := by
        rw [same, list, List.length_append, List.length_cons]
        omega
      rw [opAt_nonneg (Int.natCast_nonneg _) inside, same, list]
      simp
    have allowed : k.ledger.count.exceeded? = none := by
      change k.ledger.limit.filter _ = none
      rw [unlimited]
      rfl
    have ready : k.Ready 0 before.length op :=
      ⟨here, enabled, fun paused => absurd (free.symm.trans paused.1) (by decide), allowed⟩
    have acts : (k.enter before.length op).Acts before.length op (.ok before.length)
        { k.enter before.length op with dish := made } := by
      apply Acts.produced ordinary
      · change k.dish.get op.input = .ok (v, read)
        rw [dish]
        exact get
      · exact makes
    have passed := Passes.dispatches passes ready (Rounds.acted ready acts).eq
    have length : (before.length : Int) + 1 = (before ++ [op]).length := by simp
    rw [length] at passed
    exact ih (by rw [list, List.append_assoc, List.singleton_append]) passed same rfl unlimited

/-- A run of such operations comes to its end, with what they make of its dish. -/
theorem run_flows (flows : Flows ops d out) :
    ((fresh ops d none).run 0).1 = .at ops.length ∧ ((fresh ops d none).run 0).2.dish = out := by
  have begun : Passes 0 (fresh ops d none) 0 (List.length ([] : List Operation)) _ := .begins
  obtain ⟨n, k, passes, same, dish⟩ := begun.flows flows rfl rfl rfl rfl
  have finished : ((fresh ops d none).run 0).1 ≠ .unfinished := straight_run flows.straight
  have ended : k.round (Machine.run 0) 0 (fresh ops d none).ops.length =
      .ended (.at k.ops.length) (k.note .completed) :=
    (Rounds.completed (Int.le_of_eq (by rw [same]))).eq
  rw [passes.ends finished ended Stop.noConfusion, same]
  exact ⟨rfl, dish⟩

end Machine

end Run

end Kitchen

import Kitchen.Proofs.Run.Shape

namespace Kitchen

def kept (ops : List Operation) : List Operation :=
  ops.filter fun op => !op.disabled

def rank (ops : List Operation) (n : Nat) : Nat :=
  (kept (ops.take n)).length

variable {ops : List Operation} {op : Operation} {n : Nat}

theorem kept_append (xs ys : List Operation) : kept (xs ++ ys) = kept xs ++ kept ys :=
  List.filter_append xs ys

theorem kept_cons (op : Operation) (ops : List Operation) :
    kept (op :: ops) = if op.disabled then kept ops else op :: kept ops := by
  unfold kept
  cases disabled : op.disabled with
  | true => rw [List.filter_cons_of_neg (by simp [disabled]), if_pos rfl]
  | false => rw [List.filter_cons_of_pos (by simp [disabled]), if_neg (by decide)]

theorem kept_subset (ops : List Operation) : kept ops ⊆ ops :=
  List.filter_subset_self ops

theorem rank_zero (ops : List Operation) : rank ops 0 = 0 := rfl

/-- From the end on, every enabled operation comes before. -/
theorem rank_all (beyond : ops.length ≤ n) : rank ops n = (kept ops).length := by
  rw [rank, List.take_of_length_le beyond]

theorem rank_add (ops : List Operation) (k n : Nat) :
    rank ops (k + n) = rank ops k + rank (ops.drop k) n := by
  unfold rank
  rw [List.take_add, kept_append, List.length_append]

theorem kept_take (ops : List Operation) (n : Nat) :
    kept (ops.take n) = (kept ops).take (rank ops n) := by
  calc
    kept (ops.take n) = (kept (ops.take n) ++ kept (ops.drop n)).take (rank ops n) :=
      (List.take_left).symm
    _ = (kept ops).take (rank ops n) := by
      rw [← kept_append, List.take_append_drop]

theorem kept_drop (ops : List Operation) (n : Nat) :
    kept (ops.drop n) = (kept ops).drop (rank ops n) := by
  calc
    kept (ops.drop n) = (kept (ops.take n) ++ kept (ops.drop n)).drop (rank ops n) :=
      (List.drop_left).symm
    _ = (kept ops).drop (rank ops n) := by
      rw [← kept_append, List.take_append_drop]

theorem rank_succ (here : ops[n]? = some op) :
    rank ops (n + 1) = rank ops n + if op.disabled then 0 else 1 := by
  unfold rank
  rw [List.take_add_one, here, kept_append, List.length_append, Option.toList_some, kept_cons]
  cases op.disabled <;> rfl

theorem rank_enabled (here : ops[n]? = some op) (enabled : op.disabled = false) :
    rank ops (n + 1) = rank ops n + 1 := by
  rw [rank_succ here, enabled]
  rfl

/-- An enabled operation stands at its rank among the enabled ones. -/
theorem kept_getElem? (here : ops[n]? = some op) (enabled : op.disabled = false) :
    (kept ops)[rank ops n]? = some op := by
  have dropped : ops.drop n = op :: ops.drop (n + 1) := by
    rw [List.drop_eq_getElem?_toList_append, here]
    rfl
  have first : (kept ops).drop (rank ops n) = op :: kept (ops.drop (n + 1)) := by
    rw [← kept_drop, dropped, kept_cons, enabled]
    rfl
  have zeroth : ((kept ops).drop (rank ops n))[0]? = some op := by
    rw [first]
    rfl
  rwa [List.getElem?_drop, Nat.add_zero] at zeroth

/-- Where a test passes over disabled operations, they do not matter for how far it goes. -/
theorem kept_takeWhile (p : Operation → Bool) (ops : List Operation)
    (blind : ∀ op, op.disabled = true → p op = true) :
    kept (ops.takeWhile p) = (kept ops).takeWhile p := by
  induction ops with
  | nil => rfl
  | cons op ops ih =>
    rw [kept_cons]
    cases disabled : op.disabled with
    | true => rw [List.takeWhile_cons_of_pos (blind op disabled), kept_cons, disabled, if_pos rfl, ih,
        if_pos rfl]
    | false =>
      rw [if_neg (by decide)]
      by_cases passes : p op = true
      · rw [List.takeWhile_cons_of_pos passes, List.takeWhile_cons_of_pos passes, kept_cons, disabled,
          if_neg (by decide), ih]
      · rw [List.takeWhile_cons_of_neg passes, List.takeWhile_cons_of_neg passes]
        rfl

/-- Within the stretch that a test passes, ranks are the same as in the whole list. -/
theorem rank_takeWhile (p : Operation → Bool) (within : n ≤ (ops.takeWhile p).length) :
    rank (ops.takeWhile p) n = rank ops n := by
  have start : (ops.takeWhile p).take n = ops.take n := by
    calc
      (ops.takeWhile p).take n = (ops.take (ops.takeWhile p).length).take n :=
        congrArg (List.take n) (List.prefix_iff_eq_take.mp (List.takeWhile_prefix p))
      _ = ops.take n := by
        rw [List.take_take, Nat.min_eq_left within]
  rw [rank, start, rank]

/-- Labels that jumps can find are enabled, so the same one is found without the disabled operations. -/
theorem labelPosition_kept (label : Value) (ops : List Operation) :
    labelPosition? label (kept ops) = (labelPosition? label ops).map (rank ops) := by
  induction ops with
  | nil => rfl
  | cons op ops ih =>
    have later : ∀ n, rank (op :: ops) (n + 1) = rank ops n + if op.disabled then 0 else 1 := by
      intro n
      have first : (op :: ops)[0]? = some op := rfl
      rw [Nat.add_comm n 1, rank_add, rank_succ first, rank_zero]
      simp only [List.drop_succ_cons, List.drop_zero]
      omega
    rw [kept_cons]
    unfold labelPosition? at ih ⊢
    rw [List.findIdx?_cons]
    -- A disabled operation is no label; an enabled one is first in both lists.
    cases disabled : op.disabled with
    | true =>
      have passed : (op.does .label && op.args.head?.any (·.same label)) = false := by
        simp only [Operation.does, disabled, Bool.not_true, Bool.and_false, Bool.false_and]
      rw [passed, if_pos rfl, ih]
      simp only [Bool.false_eq_true, if_false, Option.map_map, Function.comp_def, later, disabled,
        if_true, Nat.add_zero]
    | false =>
      rw [if_neg (by decide), List.findIdx?_cons]
      split
      · rfl
      · rw [ih]
        simp only [Option.map_map, Function.comp_def, later, disabled, Bool.false_eq_true, if_false]

theorem kept_map (f : Operation → Operation) (same : ∀ op, (f op).disabled = op.disabled)
    (ops : List Operation) : kept (ops.map f) = (kept ops).map f := by
  unfold kept
  rw [List.filter_map]
  congr 1
  apply List.filter_congr
  intro op _
  simp only [Function.comp, same]

namespace Run.Machine

/-- What stands in place of an enabled operation is enabled. -/
theorem enabled_akin {ops' : List Operation} (akin : OpsAkin ops ops') (here : ops[n]? = some op)
    (enabled : op.disabled = false) : ∃ op', ops'[n]? = some op' ∧ op'.disabled = false := by
  obtain ⟨op', there, same⟩ := forall₂_back akin.flip here
  have same : op.Akin op' := same
  exact ⟨op', there, same.disabled.trans enabled⟩

theorem rank_akin {ops' : List Operation} (akin : OpsAkin ops ops') (n : Nat) :
    rank ops' n = rank ops n := by
  unfold rank
  have start := List.forall₂_take n akin
  generalize ops.take n = xs at start ⊢
  generalize ops'.take n = ys at start ⊢
  induction start with
  | nil => rfl
  | cons first _ ih =>
    rw [kept_cons, kept_cons, first.disabled]
    split
    · exact ih
    · rw [List.length_cons, List.length_cons, ih]

end Run.Machine

end Kitchen

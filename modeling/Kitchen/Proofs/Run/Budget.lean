import Kitchen.Proofs.Run.Places

namespace Kitchen.Run

namespace Operation

def allowance (op : Operation) : Nat :=
  ((budget? op).bind Value.whole?).elim 0 Int.toNat

end Operation

-- All budgets are whole numbers.
def Budgeted (ops : List Operation) : Prop :=
  ∀ op ∈ ops, ∀ budget ∈ Operation.budget? op, budget.whole?.isSome

instance (ops : List Operation) : Decidable (Budgeted ops) :=
  inferInstanceAs (Decidable (∀ op ∈ ops, ∀ budget ∈ Operation.budget? op, budget.whole?.isSome))

-- The greatest number of jumps that a budget in a list allows.
def mostJumps (ops : List Operation) : Nat :=
  ops.foldr (fun op most => max (Operation.allowance op) most) 0

theorem Budgeted.subset {ops ops' : List Operation} (budgeted : Budgeted ops) (h : ops' ⊆ ops) :
    Budgeted ops' :=
  fun op mem => budgeted op (h mem)

theorem Budgeted.bound {ops : List Operation} {op : Operation} {budget : Value}
    (budgeted : Budgeted ops) (mem : op ∈ ops) (here : Operation.budget? op = some budget) :
    budgetBound budget = some (Operation.allowance op) ∧
      ∃ n, budget.whole? = some n ∧ Operation.allowance op = n.toNat := by
  obtain ⟨n, whole⟩ := Option.isSome_iff_exists.mp (budgeted op mem budget here)
  have allowance : Operation.allowance op = n.toNat := by
    simp only [Operation.allowance, here, whole, Option.bind_some, Option.elim_some]
  refine ⟨?_, n, whole, allowance⟩
  simp only [budgetBound, whole, allowance]

/-- A fold that takes each allowance into account comes to the greatest. -/
theorem foldl_allowance {f : Option Nat → Operation → Option Nat} {ops : List Operation}
    (step : ∀ op ∈ ops, ∀ most, f (some most) op = some (max most (Operation.allowance op)))
    (most : Nat) : ops.foldl f (some most) = some (max most (mostJumps ops)) := by
  induction ops generalizing most with
  | nil => exact congrArg some (Nat.max_zero most).symm
  | cons op rest ih =>
    have greatest : mostJumps (op :: rest) = max (Operation.allowance op) (mostJumps rest) := rfl
    rw [List.foldl_cons, step op List.mem_cons_self, greatest, ← Nat.max_assoc]
    exact ih (fun op mem => step op (List.mem_cons_of_mem _ mem)) _

/-- The rounds granted to a run with whole budgets go by the greatest one. -/
theorem Budgeted.jumpBound {ops : List Operation} (budgeted : Budgeted ops) :
    jumpBound ops = some (mostJumps ops) := by
  unfold Run.jumpBound
  rw [foldl_allowance _ 0, Nat.zero_max]
  intro op mem most
  cases here : Operation.budget? op with
  | none =>
    have nothing : Operation.allowance op = 0 := by
      simp only [Operation.allowance, here, Option.bind_none, Option.elim_none]
    rw [nothing, Nat.max_zero]
  | some budget =>
    have bound := (budgeted.bound mem here).1
    simp only [bound]
    rfl

/-- A budget stands where one stood before references were filled. -/
theorem budget_akin {a b : Operation} {w : Value} (h : a.Akin b)
    (here : Operation.budget? b = some w) : ∃ v : Value, Operation.budget? a = some v ∧ v.Akin w := by
  -- Wherever among the arguments the budget stands, one stood there before.
  have back : ∀ n : Nat, b.args[n]? = some w → ∃ v : Value, a.args[n]? = some v ∧ v.Akin w :=
    fun n there => forall₂_back h.args there
  unfold Operation.budget? at here ⊢
  rw [h.primitive] at here
  split at here
  · exact back 1 here
  · exact back 3 here
  · cases here

theorem Budgeted.akin {ops ops' : List Operation} (budgeted : Budgeted ops)
    (akin : Machine.OpsAkin ops ops') : Budgeted ops' := by
  intro op mem budget here
  obtain ⟨op₀, mem₀, same⟩ := akin.back mem
  obtain ⟨budget₀, here₀, filled⟩ := budget_akin same here
  rw [filled.whole]
  exact budgeted op₀ mem₀ budget₀ here₀

def Spends (most : Nat) (ops : List Operation) : Prop :=
  ∀ op ∈ ops, op.disabled = false → ∀ budget ∈ Operation.budget? op, ∀ jumps : Nat,
    Deed.spent jumps budget = .ok false → jumps < most

/-- Nothing is allowed by a text. -/
theorem spent_isText {v : Value} (text : v.isText) (jumps : Nat) :
    Deed.spent jumps v = .error (.unordered "str") := by
  cases v with
  | text s => rfl
  | torn t => rfl
  | _ => cases text

theorem budgetBound_isText {v : Value} (text : v.isText) : budgetBound v = some 0 := by
  cases v with
  | text s => rfl
  | torn t => rfl
  | _ => cases text

/-- What is left of a budget does not depend on references that were filled. -/
theorem spent_akin {v w : Value} (h : v.Akin w) (jumps : Nat) :
    Deed.spent jumps w = Deed.spent jumps v := by
  by_cases text : v.isText
  · rw [spent_isText text, spent_isText ((Value.akin_of_isText text).mp h)]
  · cases v with
    | text s => exact absurd rfl text
    | torn t => exact absurd rfl text
    | map es =>
      obtain ⟨fs, rfl, -⟩ := h
      rfl
    | _ =>
      cases h
      rfl

theorem budgetBound_akin {v w : Value} (h : v.Akin w) : budgetBound w = budgetBound v := by
  by_cases text : v.isText
  · rw [budgetBound_isText text, budgetBound_isText ((Value.akin_of_isText text).mp h)]
  · cases v with
    | text s => exact absurd rfl text
    | torn t => exact absurd rfl text
    | map es =>
      obtain ⟨fs, rfl, -⟩ := h
      rfl
    | _ =>
      cases h
      rfl

theorem Spends.akin {most : Nat} {ops ops' : List Operation} (spends : Spends most ops)
    (akin : Machine.OpsAkin ops ops') : Spends most ops' := by
  intro op mem enabled budget here jumps left
  obtain ⟨op₀, mem₀, same⟩ := akin.back mem
  obtain ⟨budget₀, here₀, filled⟩ := budget_akin same here
  rw [spent_akin filled] at left
  exact spends op₀ mem₀ (same.disabled.symm.trans enabled) budget₀ here₀ jumps left

/-- A whole number below a float is below the one after what the float is rounded to. -/
theorem compareInt_truncate {n t : Int} {x : Float} (front : 0 ≤ n)
    (cut : Number.truncate? x = some t) (greater : Number.compareInt n x ≠ some .gt)
    (equal : Number.compareInt n x ≠ some .eq) : n < t + 1 := by
  obtain ⟨⟨a, d⟩, ratio, quotient⟩ := Option.map_eq_some_iff.mp cut
  have quotient : a.tdiv d = t := quotient
  -- Only finite floats are quotients, and these are compared by multiplying out.
  have compared : Number.compareInt n x = some (compare (n * d) a) := by
    unfold Number.compareInt
    unfold Number.ratio? at ratio ⊢
    cases finite : Number.parts x with
    | finite negative m q =>
      rw [finite] at ratio
      cases ratio
      rfl
    | _ =>
      rw [finite] at ratio
      cases ratio
  have positive : 0 < d := by
    unfold Number.ratio? at ratio
    split at ratio
    · cases ratio
      exact Nat.pow_pos (by decide)
    · cases ratio
  rw [compared] at greater equal
  have less : n * d < a := by
    cases order : compare (n * d) a with
    | lt => exact Int.compare_eq_lt.mp order
    | eq => exact absurd (congrArg some order) equal
    | gt => exact absurd (congrArg some order) greater
  have numerator : 0 ≤ a := by
    have product : 0 ≤ n * d := Int.mul_nonneg front (Int.natCast_nonneg d)
    omega
  have below : n ≤ a / d := Int.le_ediv_of_mul_le (by omega) (Int.le_of_lt less)
  rw [Int.tdiv_eq_ediv_of_nonneg numerator] at quotient
  omega

theorem spent_bound {jumps b : Nat} {budget : Value} (bound : budgetBound budget = some b)
    (left : Deed.spent jumps budget = .ok false) : jumps < b := by
  cases whole : budget.whole? with
  | some n =>
    have less := Deed.spent_whole whole left
    simp only [budgetBound, whole, Option.some.injEq] at bound
    omega
  | none =>
    cases budget with
    | float x =>
      obtain ⟨t, cut, rfl⟩ := Option.map_eq_some_iff.mp bound
      have unspent : (Number.compareInt jumps x == some .gt || Number.compareInt jumps x == some .eq) =
          false := Except.ok.inj left
      rw [Bool.or_eq_false_iff] at unspent
      have below := compareInt_truncate (Int.natCast_nonneg jumps) cut
        (ne_of_beq_false unspent.1) (ne_of_beq_false unspent.2)
      omega
    | bool b => cases whole
    | int n => cases whole
    | _ => cases left

def raise (most : Option Nat) (op : Operation) : Option Nat :=
  match Operation.budget? op with
  | none => most
  | some v => do return max (← most) (← budgetBound v)

theorem raise_some {most : Option Nat} {op : Operation} {b : Nat} (raised : raise most op = some b) :
    (∃ a ≤ b, most = some a) ∧ ∀ budget ∈ Operation.budget? op, ∃ c ≤ b, budgetBound budget = some c := by
  unfold raise at raised
  cases here : Operation.budget? op with
  | none =>
    rw [here] at raised
    exact ⟨⟨b, Nat.le_refl b, raised⟩, fun budget there => by cases there⟩
  | some v =>
    rw [here] at raised
    obtain ⟨a, before, c, bounded, greatest⟩ : ∃ a, most = some a ∧ ∃ c, budgetBound v = some c ∧
        max a c = b := by
      simpa only [Option.bind_eq_bind, Option.bind_eq_some_iff, Option.pure_def,
        Option.some.injEq] using raised
    refine ⟨⟨a, by omega, before⟩, ?_⟩
    intro budget there
    cases there
    exact ⟨c, by omega, bounded⟩

/-- The greatest bound in a list is one for each of its budgets. -/
theorem jumpBound_some {ops : List Operation} {most : Nat} (bound : jumpBound ops = some most) :
    ∀ op ∈ ops, ∀ budget ∈ Operation.budget? op, ∃ b ≤ most, budgetBound budget = some b := by
  -- The induction is on the list, from whatever bound the fold begins with.
  suffices fold : ∀ (ops : List Operation) (first : Option Nat), ops.foldl raise first = some most →
      (∃ b ≤ most, first = some b) ∧
        ∀ op ∈ ops, ∀ budget ∈ Operation.budget? op, ∃ b ≤ most, budgetBound budget = some b from
    (fold ops (some 0) bound).2
  intro ops
  induction ops with
  | nil =>
    intro first folded
    exact ⟨⟨most, Nat.le_refl most, folded⟩, fun op mem => by cases mem⟩
  | cons op rest ih =>
    intro first folded
    obtain ⟨⟨b, below, raised⟩, later⟩ := ih _ folded
    obtain ⟨⟨a, before, first⟩, here⟩ := raise_some raised
    refine ⟨⟨a, Nat.le_trans before below, first⟩, ?_⟩
    intro op' mem budget there
    rcases List.mem_cons.mp mem with rfl | mem
    · obtain ⟨c, most', bounded⟩ := here budget there
      exact ⟨c, Nat.le_trans most' below, bounded⟩
    · exact later op' mem budget there

theorem jumpBound_isSome {ops : List Operation}
    (bounded : ∀ op ∈ ops, ∀ budget ∈ Operation.budget? op, (budgetBound budget).isSome) :
    (jumpBound ops).isSome := by
  suffices fold : ∀ (ops : List Operation) (first : Option Nat), first.isSome →
      (∀ op ∈ ops, ∀ budget ∈ Operation.budget? op, (budgetBound budget).isSome) →
      (ops.foldl raise first).isSome from fold ops (some 0) rfl bounded
  intro ops
  induction ops with
  | nil => exact fun first known _ => known
  | cons op rest ih =>
    intro first known bounded
    apply ih _ _ fun op' mem => bounded op' (List.mem_cons_of_mem op mem)
    unfold raise
    cases here : Operation.budget? op with
    | none => exact known
    | some v =>
      obtain ⟨a, rfl⟩ := Option.isSome_iff_exists.mp known
      obtain ⟨c, bound⟩ := Option.isSome_iff_exists.mp (bounded op List.mem_cons_self v here)
      simp only [bound, Option.bind_eq_bind, Option.bind_some, Option.pure_def, Option.isSome_some]

theorem spends_jumpBound {ops : List Operation} {most : Nat} (bound : jumpBound ops = some most) :
    Spends most ops := by
  intro op mem _ budget here jumps left
  obtain ⟨b, below, bounded⟩ := jumpBound_some bound op mem budget here
  have less := spent_bound bounded left
  omega

theorem Budgeted.spends {ops : List Operation} (budgeted : Budgeted ops) :
    Spends (mostJumps ops) ops :=
  spends_jumpBound budgeted.jumpBound

theorem raise_akin {a b : Operation} (h : a.Akin b) (most : Option Nat) : raise most b = raise most a := by
  -- The same argument is looked at in both, and bounds the jumps alike.
  have same : ∀ n : Nat, b.args[n]?.map budgetBound = a.args[n]?.map budgetBound := by
    have args := h.args
    generalize a.args = vs at args
    generalize b.args = ws at args
    induction args with
    | nil => exact fun n => rfl
    | cons first _ ih =>
      intro n
      cases n with
      | zero => exact congrArg some (budgetBound_akin first)
      | succ n => simpa using ih n
  have bounds : (Operation.budget? b).map budgetBound = (Operation.budget? a).map budgetBound := by
    unfold Operation.budget?
    rw [h.primitive]
    split
    · exact same 1
    · exact same 3
    · rfl
  unfold raise
  cases budget : Operation.budget? a with
  | none =>
    rw [budget] at bounds
    rw [Option.map_eq_none_iff.mp bounds]
  | some v =>
    rw [budget] at bounds
    obtain ⟨w, there, bound⟩ := Option.map_eq_some_iff.mp bounds
    simp only [there, bound]

/-- Filling references does not change how many rounds are granted. -/
theorem rounds_akin {ops ops' : List Operation} (akin : Machine.OpsAkin ops ops') (limit : Option Int) :
    rounds ops' limit = rounds ops limit := by
  have fold : ∀ most : Option Nat, ops'.foldl raise most = ops.foldl raise most := by
    induction akin with
    | nil => exact fun most => rfl
    | cons first _ ih =>
      intro most
      rw [List.foldl_cons, List.foldl_cons, raise_akin first, ih]
  have bound : jumpBound ops' = jumpBound ops := fold (some 0)
  unfold rounds
  rw [bound, ← akin.length_eq]

/-- Filling references leaves a list bounded, and so does taking operations away. -/
theorem jumpBound_within {ops ops' ops'' : List Operation} (akin : Machine.OpsAkin ops ops')
    (subset : ops'' ⊆ ops') (bounded : (jumpBound ops).isSome) : (jumpBound ops'').isSome := by
  obtain ⟨most, bound⟩ := Option.isSome_iff_exists.mp bounded
  apply jumpBound_isSome
  intro op mem budget here
  obtain ⟨op₀, mem₀, same⟩ := akin.back (subset mem)
  obtain ⟨budget₀, here₀, filled⟩ := budget_akin same here
  obtain ⟨b, -, bound₀⟩ := jumpBound_some bound op₀ mem₀ budget₀ here₀
  rw [budgetBound_akin filled, bound₀]
  rfl

/-- The operations of a Fork are among those of its list. -/
theorem Machine.Opens.subset {run : Machine → Stop × Machine} {start i : Int} {m child : Machine}
    (keeps : KeepsShape run) (opens : m.Opens run start i child) : child.ops ⊆ m.ops := by
  cases opens with
  | @intro op v d s _ ready fork get cut opens =>
    have subset : s.body ⊆ ((m.enter i op).forking i d).ops := split_subset cut
    rw [opens.ops keeps]
    exact subset

/-- What holds of the operations of a run, whatever is filled in for references, holds at every round. -/
theorem Machine.Passes.all {P : Operation → Prop} {start i : Int} {n : Nat} {m k : Machine}
    (keeps : ∀ {a b : Operation}, a.Akin b → P a → P b) (all : ∀ op ∈ m.ops, P op)
    (passes : Passes start m n i k) : ∀ op ∈ k.ops, P op := by
  intro op mem
  obtain ⟨op₀, mem₀, same⟩ := OpsAkin.back (places.passes trivial passes).ops mem
  exact keeps same (all op₀ mem₀)

/-- What holds of the operations of a run, whatever is filled in for references, holds of those of every
execution that arises in it. -/
theorem Machine.Arises.all {P : Operation → Prop} {start start' : Int} {m m' : Machine}
    (keeps : ∀ {a b : Operation}, a.Akin b → P a → P b) (all : ∀ op ∈ m.ops, P op)
    (arises : Arises start m start' m') : ∀ op ∈ m'.ops, P op := by
  induction arises with
  | outermost => exact all
  | tranche outer passes opens ih =>
    intro op mem
    exact passes.all keeps ih op (opens.subset regular_run.shape mem)

end Kitchen.Run

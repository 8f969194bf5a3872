import Kitchen.Proofs.Dish.Typing
import Kitchen.Proofs.Run.Straight
import Kitchen.Proofs.Value.Fields
import Mathlib.Data.List.Induction
import Mathlib.Logic.Function.Iterate

/-!
Loops, one after the other. Each is a label, a body and a jump back to the label within a budget. The jumps
of a run are counted once for all its loops, so a loop goes round again only as often as its budget is
greater than every budget before it.
-/
namespace Kitchen

open Text (Glyph)

-- An ordinary operation that is carried out wherever it stands and makes a text of every text of some kind, which
-- is of this kind again.
structure Operation.Steady (Fit : List Glyph → Prop) (op : Operation) : Prop where
  ordinary : op.primitive? = none
  enabled : op.disabled = false
  onward : op.pauses = false
  reads : op.input = "string"
  writes : op.output = "string"
  makes : ∀ gs, Fit gs → ∃ hs, op.apply (.ofGlyphs gs) = .ok (.ofGlyphs hs) ∧ Fit hs

def Operation.rewrite (op : Operation) (gs : List Glyph) : List Glyph :=
  match op.apply (.ofGlyphs gs) with
  | .ok v => v.glyphs
  | .error _ => gs

theorem Operation.Steady.produce {Fit : List Glyph → Prop} {op : Operation} {gs : List Glyph}
    (steady : op.Steady Fit) (fit : Fit gs) :
    op.produce (.ofGlyphs gs) = .ok ⟨.ofGlyphs (op.rewrite gs), "string"⟩ ∧ Fit (op.rewrite gs) := by
  obtain ⟨hs, made, fit'⟩ := steady.makes gs fit
  have rewritten : op.rewrite gs = hs := by simp only [rewrite, made, Value.glyphs_ofGlyphs]
  have set := Dish.set_isText (Value.isText_ofGlyphs hs)
  rw [rewritten]
  refine ⟨?_, fit'⟩
  unfold Operation.produce
  rw [made, steady.writes]
  change (Dish.set (.ofGlyphs hs) "string").mapError Failure.ofDish = _
  rw [set]
  rfl

namespace Run

-- A body between a label and a jump back to it.
structure Loop (Fit : List Glyph → Prop) where
  label : List Glyph
  body : List Operation
  steady : ∀ op ∈ body, op.Steady Fit
  budget : Int

namespace Loop

variable {Fit : List Glyph → Prop} {earlier : List (Loop Fit)} {l : Loop Fit}

def opening (l : Loop Fit) : Operation :=
  ⟨Primitive.label.name, [.ofGlyphs l.label], "string", "string", false, false, none⟩

def closing (l : Loop Fit) : Operation :=
  ⟨Primitive.jump.name, [.ofGlyphs l.label, .int l.budget], "string", "string", false, false, none⟩

def ops (l : Loop Fit) : List Operation :=
  l.opening :: l.body ++ [l.closing]

def turn (l : Loop Fit) (gs : List Glyph) : List Glyph :=
  l.body.foldl (fun gs op => op.rewrite gs) gs

def greatest (loops : List (Loop Fit)) : Int :=
  loops.foldl (fun most l => max most l.budget) 0

-- How often the body of a loop is carried out behind others: once, and again for each jump that its budget
-- allows beyond all of theirs.
def times (earlier : List (Loop Fit)) (l : Loop Fit) : Nat :=
  1 + (max 0 (l.budget - greatest earlier)).toNat

-- What loops make of a text one after the other, behind others.
def outcome (earlier : List (Loop Fit)) : List (Loop Fit) → List Glyph → List Glyph
  | [], gs => gs
  | l :: rest, gs => outcome (earlier ++ [l]) rest (l.turn^[times earlier l] gs)

theorem greatest_behind (earlier : List (Loop Fit)) (l : Loop Fit) :
    greatest (earlier ++ [l]) = max (greatest earlier) l.budget := by
  simp only [greatest, List.foldl_append, List.foldl_cons, List.foldl_nil]

theorem greatest_nonneg (loops : List (Loop Fit)) : 0 ≤ greatest loops := by
  -- From the back: a further budget does not lower what was the greatest before it.
  induction loops using List.reverseRecOn with
  | nil => exact Int.le_refl 0
  | append_singleton earlier l ih =>
    rw [greatest_behind]
    omega

@[simp] theorem opening_primitive (l : Loop Fit) : l.opening.primitive? = some .label :=
  Primitive.ofName?_name .label

@[simp] theorem closing_primitive (l : Loop Fit) : l.closing.primitive? = some .jump :=
  Primitive.ofName?_name .jump

theorem mem_ops {op : Operation} (mem : op ∈ l.ops) : op = l.opening ∨ op ∈ l.body ∨ op = l.closing := by
  simpa [ops] using mem

theorem budgeted (loops : List (Loop Fit)) : Budgeted (loops.flatMap ops) := by
  intro op mem budget here
  obtain ⟨l, -, mem⟩ := List.mem_flatMap.mp mem
  -- Only the jump at the end of a loop has a budget.
  rcases mem_ops mem with rfl | mem | rfl
  · simp only [Operation.budget?, opening_primitive] at here
    cases here
  · simp only [Operation.budget?, (l.steady op mem).ordinary] at here
    cases here
  · simp only [Operation.budget?, closing_primitive] at here
    cases here
    rfl

/-- The label with a name in loops is the one that opens the loop with this name. -/
theorem named {op : Operation} {name : List Glyph} (mem : op ∈ l.ops)
    (named : (op.does .label && op.args.head?.any (·.same (.ofGlyphs name))) = true) : l.label = name := by
  obtain ⟨label, same⟩ := Bool.and_eq_true_iff.mp named
  have primitive := (Operation.does_iff.mp label).1
  rcases mem_ops mem with rfl | mem | rfl
  · have same : (Value.ofGlyphs l.label).same (.ofGlyphs name) = true := by simpa [opening] using same
    exact (Value.ofGlyphs_inj ((Value.same_of_isText (Value.isText_ofGlyphs _)).mp same)).symm
  · rw [(l.steady op mem).ordinary] at primitive
    cases primitive
  · rw [closing_primitive] at primitive
    cases primitive

/-- A jump leads back to the front of its loop. -/
theorem labelPosition (apart : ∀ e ∈ earlier, e.label ≠ l.label) (later : List (Loop Fit)) :
    labelPosition? (.ofGlyphs l.label) ((earlier ++ l :: later).flatMap ops) =
      some (earlier.flatMap ops).length := by
  have before : labelPosition? (.ofGlyphs l.label) (earlier.flatMap ops) = none := by
    apply List.findIdx?_eq_none_iff.mpr
    intro op mem
    obtain ⟨e, here, mem⟩ := List.mem_flatMap.mp mem
    rw [← Bool.not_eq_true]
    exact fun found => apart e here (named mem found)
  have here : labelPosition? (.ofGlyphs l.label) ((l :: later).flatMap ops) = some 0 := by
    have opens : (l.opening.does .label && l.opening.args.head?.any (·.same (.ofGlyphs l.label))) = true := by
      have does : l.opening.does .label = true := Operation.does_iff.mpr ⟨opening_primitive l, rfl⟩
      have same : (Value.ofGlyphs l.label).same (.ofGlyphs l.label) = true :=
        (Value.same_of_isText (Value.isText_ofGlyphs _)).mpr rfl
      rw [does]
      simp [opening, same]
    simp only [labelPosition?, List.flatMap_cons, ops, List.cons_append, List.findIdx?_cons, opens,
      if_true]
  unfold labelPosition? at before here ⊢
  rw [List.flatMap_append, List.findIdx?_append, before, here]
  simp

end Loop

namespace Machine

variable {Fit : List Glyph → Prop} {m k : Machine} {op : Operation} {l : Loop Fit} {p q jumps jumps' : Nat}
  {gs hs : List Glyph}

-- A machine with a list as it was, so many jumps taken, a text in its dish and no limit.
structure Stands (list : List Operation) (jumps : Nat) (gs : List Glyph) (k : Machine) : Prop where
  ops : k.ops = list
  dish : k.dish = ⟨.ofGlyphs gs, "string"⟩
  jumps : k.frame.jumps = jumps
  free : k.ledger.limit = none

-- A run from the front comes before a place with so many jumps taken and a text of some kind in its dish.
structure Nears (Fit : List Glyph → Prop) (m : Machine) (p jumps : Nat) (gs : List Glyph) : Prop where
  fits : Fit gs
  comes : ∃ n k, Passes 0 m n p k ∧ Stands m.ops jumps gs k

theorem Stands.get {list : List Operation} (stands : Stands list jumps gs k) :
    k.dish.get "string" = .ok (.ofGlyphs gs, k.dish) := by
  rw [stands.dish]
  exact Dish.get_isText (Value.isText_ofGlyphs gs)

/-- What an operation does wherever the run stands as it does at its place, the run has done behind it. -/
theorem Nears.past (nears : m.Nears Fit p jumps gs) (here : m.ops[p]? = some op)
    (enabled : op.disabled = false) (onward : op.pauses = false) (fits : Fit hs)
    (acts : ∀ k, Stands m.ops jumps gs k → ∃ k', k.Acts p op (.ok q) k' ∧ Stands m.ops jumps' hs k') :
    m.Nears Fit (q + 1) jumps' hs := by
  obtain ⟨n, k, passes, stands⟩ := nears.comes
  have inside : p < k.ops.length := by
    rw [stands.ops]
    exact (List.getElem?_eq_some_iff.mp here).1
  have there : k.opAt? p = some op := by
    rw [opAt_nonneg (Int.natCast_nonneg p) (Int.ofNat_lt.mpr inside), stands.ops]
    exact here
  have allowed : k.ledger.count.exceeded? = none := by
    change k.ledger.limit.filter _ = none
    rw [stands.free]
    rfl
  have ready : k.Ready 0 p op :=
    ⟨there, enabled, fun paused => absurd (onward.symm.trans paused.1) (by decide), allowed⟩
  obtain ⟨k', acted, after⟩ := acts (k.enter p op) ⟨stands.ops, stands.dish, stands.jumps, stands.free⟩
  have round : k.round (Machine.run 0) 0 p = .onward (q + 1) _ := (Rounds.acted ready acted).eq
  refine ⟨fits, n + 1, _, .dispatches passes ready round, ?_⟩
  exact ⟨after.ops, after.dish, after.jumps, after.free⟩

theorem Nears.label (nears : m.Nears Fit p jumps gs) (here : m.ops[p]? = some l.opening) :
    m.Nears Fit (p + 1) jumps gs := by
  apply nears.past here rfl rfl nears.fits
  intro k stands
  have decided : Deed.ofPrimitive k.outlook l.opening k.dish .label = (.ok .pass, k.dish) := rfl
  refine ⟨_, .enacted l.opening_primitive (by decide) stands.get decided, ?_⟩
  exact ⟨stands.ops, stands.dish, stands.jumps, stands.free⟩

theorem Nears.steady (nears : m.Nears Fit p jumps gs) (here : m.ops[p]? = some op) (steady : op.Steady Fit) :
    m.Nears Fit (p + 1) jumps (op.rewrite gs) := by
  obtain ⟨made, fits⟩ := steady.produce nears.fits
  apply nears.past here steady.enabled steady.onward fits
  intro k stands
  have get : k.dish.get op.input = .ok (.ofGlyphs gs, k.dish) := steady.reads ▸ stands.get
  exact ⟨_, .produced steady.ordinary get made, stands.ops, rfl, stands.jumps, stands.free⟩

/-- Within its budget a jump leads back behind its label. -/
theorem Nears.jump (nears : m.Nears Fit p jumps gs) (here : m.ops[p]? = some l.closing)
    (found : labelPosition? (.ofGlyphs l.label) m.ops = some q) (left : jumps < l.budget) :
    m.Nears Fit (q + 1) (jumps + 1) gs := by
  apply nears.past here rfl rfl nears.fits
  intro k stands
  have unspent : Deed.spent k.outlook.jumps (.int l.budget) = .ok false := by
    simp only [Deed.spent, Value.whole?, outlook, stands.jumps]
    simpa using left
  have position : k.outlook.find (.ofGlyphs l.label) = some q := by
    change labelPosition? _ k.ops = _
    rw [stands.ops, found]
  have decided : Deed.ofPrimitive k.outlook l.closing k.dish .jump =
      (.ok (.leap (.ofGlyphs l.label) q), k.dish) := by
    simp only [Deed.ofPrimitive, Deed.jump, Loop.closing, Deed.aim, unspent, position]
  refine ⟨_, .enacted l.closing_primitive (by decide) stands.get decided, ?_⟩
  exact ⟨stands.ops, stands.dish, congrArg (· + 1) stands.jumps, stands.free⟩

/-- Once its budget is spent, by whatever jumps, a jump is passed over. -/
theorem Nears.stay (nears : m.Nears Fit p jumps gs) (here : m.ops[p]? = some l.closing)
    (spent : l.budget ≤ jumps) : m.Nears Fit (p + 1) jumps gs := by
  apply nears.past here rfl rfl nears.fits
  intro k stands
  have spent : Deed.spent k.outlook.jumps (.int l.budget) = .ok true := by
    simp only [Deed.spent, Value.whole?, outlook, stands.jumps]
    simpa using spent
  have decided : Deed.ofPrimitive k.outlook l.closing k.dish .jump = (.ok .stay, k.dish) := by
    simp only [Deed.ofPrimitive, Deed.jump, Loop.closing, Deed.aim, spent]
  refine ⟨_, .enacted l.closing_primitive (by decide) stands.get decided, ?_⟩
  exact ⟨stands.ops, stands.dish, stands.jumps, stands.free⟩

/-- Steady operations in a row make of the text what they make of it one after the other. -/
theorem Nears.body {body : List Operation} (steady : ∀ op ∈ body, op.Steady Fit)
    (nears : m.Nears Fit p jumps gs) (here : ∀ i < body.length, m.ops[p + i]? = body[i]?) :
    m.Nears Fit (p + body.length) jumps (body.foldl (fun gs op => op.rewrite gs) gs) := by
  induction body generalizing p gs with
  | nil => exact nears
  | cons op body ih =>
    have first := nears.steady (here 0 (Nat.succ_pos _)) (steady op List.mem_cons_self)
    have rest : ∀ i < body.length, m.ops[p + 1 + i]? = body[i]? := by
      intro i inside
      rw [Nat.add_assoc, Nat.add_comm 1 i]
      exact here (i + 1) (Nat.succ_lt_succ inside)
    have after := ih (fun op mem => steady op (List.mem_cons_of_mem _ mem)) first rest
    rw [Nat.add_assoc, Nat.add_comm 1] at after
    exact after

structure Loops (list : List Operation) (l : Loop Fit) (p : Nat) : Prop where
  here : ∀ i < l.ops.length, list[p + i]? = l.ops[i]?
  found : labelPosition? (.ofGlyphs l.label) list = some p

theorem Loops.closing {list : List Operation} (loops : Loops list l p) :
    list[p + 1 + l.body.length]? = some l.closing := by
  rw [Nat.add_assoc, Nat.add_comm 1, loops.here (l.body.length + 1) (by simp [Loop.ops])]
  simp [Loop.ops]

/-- Behind the label of a loop the body is carried out once, and again for each jump that is left. -/
theorem Nears.rounds (loops : Loops m.ops l p) (left : Nat)
    (nears : m.Nears Fit (p + 1) jumps gs) (budget : (l.budget - jumps).toNat = left) :
    m.Nears Fit (p + l.ops.length) (jumps + left) (l.turn^[left + 1] gs) := by
  have within : ∀ i < l.body.length, m.ops[p + 1 + i]? = l.body[i]? := by
    intro i inside
    rw [Nat.add_assoc, loops.here (1 + i) (by simp [Loop.ops]; omega), Nat.add_comm 1 i]
    simp [Loop.ops, List.getElem?_append, inside]
  -- The induction is on the jumps that are left; each comes behind the label with one fewer.
  induction left generalizing jumps gs with
  | zero =>
    have turned := nears.body l.steady within
    have stayed := turned.stay loops.closing (by omega)
    have size : p + 1 + l.body.length + 1 = p + l.ops.length := by simp [Loop.ops]; omega
    rw [size] at stayed
    exact stayed
  | succ left ih =>
    have turned := nears.body l.steady within
    have again := turned.jump loops.closing loops.found (by omega)
    have rest := ih again (by omega)
    rw [Nat.add_assoc, Nat.add_comm 1] at rest
    rw [Function.iterate_succ_apply]
    exact rest

/-- Where a loop is passed, as many jumps were taken as its budget allows, or as were before. -/
theorem Nears.loop {earlier : List (Loop Fit)} (loops : Loops m.ops l p)
    (nears : m.Nears Fit p (Loop.greatest earlier).toNat gs) :
    m.Nears Fit (p + l.ops.length) (Loop.greatest (earlier ++ [l])).toNat
      (l.turn^[Loop.times earlier l] gs) := by
  have nonneg := Loop.greatest_nonneg earlier
  have opened := nears.label (loops.here 0 (by simp [Loop.ops]))
  have passed := opened.rounds loops _ rfl
  have jumps : (Loop.greatest earlier).toNat + (l.budget - (Loop.greatest earlier).toNat).toNat =
      (Loop.greatest (earlier ++ [l])).toNat := by
    rw [Loop.greatest_behind]
    omega
  have times : (l.budget - (Loop.greatest earlier).toNat).toNat + 1 = Loop.times earlier l := by
    unfold Loop.times
    omega
  rw [jumps, times] at passed
  exact passed

theorem Nears.loops (earlier rest : List (Loop Fit)) (list : m.ops = (earlier ++ rest).flatMap Loop.ops)
    (distinct : ((earlier ++ rest).map Loop.label).Nodup)
    (nears : m.Nears Fit (earlier.flatMap Loop.ops).length (Loop.greatest earlier).toNat gs) :
    m.Nears Fit m.ops.length (Loop.greatest (earlier ++ rest)).toNat (Loop.outcome earlier rest gs) := by
  -- The induction is on the loops to come; what was passed is told by the greatest budget in it.
  induction rest generalizing earlier gs with
  | nil =>
    rw [List.append_nil] at list ⊢
    rw [list]
    exact nears
  | cons l rest ih =>
    have apart : ∀ e ∈ earlier, e.label ≠ l.label := by
      rw [List.map_append, List.nodup_append] at distinct
      intro e mem
      exact distinct.2.2 _ (List.mem_map_of_mem mem) _ (by simp)
    have loops : Loops m.ops l (earlier.flatMap Loop.ops).length := by
      constructor
      · intro i inside
        rw [list, List.flatMap_append, List.getElem?_append_right (Nat.le_add_right _ _),
          Nat.add_sub_cancel_left, List.flatMap_cons, List.getElem?_append_left inside]
      · rw [list]
        exact Loop.labelPosition apart rest
    have passed := nears.loop loops
    have length : (earlier.flatMap Loop.ops).length + l.ops.length =
        ((earlier ++ [l]).flatMap Loop.ops).length := by simp
    have split : earlier ++ l :: rest = earlier ++ [l] ++ rest := by simp
    rw [length] at passed
    rw [split] at list distinct ⊢
    exact ih (earlier ++ [l]) list distinct passed

/-- A run of loops with different labels comes to its end, after as many jumps as the greatest budget
allows. The body of each loop is carried out once, and again as often as its budget is greater than all
budgets before it and than zero. -/
theorem run_loops {Fit : List Glyph → Prop} (loops : List (Loop Fit)) (distinct : (loops.map Loop.label).Nodup)
    (gs : List Glyph) (fits : Fit gs) :
    let begun := fresh (loops.flatMap Loop.ops) ⟨.ofGlyphs gs, "string"⟩ none
    (begun.run 0).1 = .at begun.ops.length ∧
      (begun.run 0).2.dish = ⟨.ofGlyphs (Loop.outcome [] loops gs), "string"⟩ ∧
      (begun.run 0).2.frame.jumps = (Loop.greatest loops).toNat := by
  intro begun
  have first : begun.Nears Fit 0 0 gs := ⟨fits, 0, _, .begins, rfl, rfl, rfl, rfl⟩
  obtain ⟨-, n, k, passes, stands⟩ := Nears.loops [] loops rfl distinct first
  have finished : (begun.run 0).1 ≠ .unfinished := run_finishes 0 (Loop.budgeted loops)
  have ended : k.round (Machine.run 0) 0 begun.ops.length = .ended (.at k.ops.length) (k.note .completed) :=
    (Rounds.completed (Int.le_of_eq (by rw [stands.ops]))).eq
  have run := passes.ends finished ended Stop.noConfusion
  rw [run, stands.ops]
  exact ⟨rfl, stands.dish, stands.jumps⟩

def trail : Transform where
  title := "Trail"
  name := "Trail"
  input := "string"
  output := "string"
  defaults := [.text ""]
  run v args :=
    match v.glyphs?, args with
    | some gs, .text behind :: _ => .ok (.ofGlyphs (gs ++ Glyph.ofText behind))
    | _, _ => Transform.misuse (.lacks v.kind "trail")

def trailing (label : String) (budget : Int) : Loop fun _ => True where
  label := Glyph.ofText label
  body := [⟨"Trail", [.text label], "string", "string", false, false, some trail⟩]
  steady := by
    intro op mem
    rw [List.mem_singleton.mp mem]
    have ordinary : Primitive.ofName? "Trail" = none := by decide +kernel
    refine ⟨ordinary, rfl, rfl, rfl, rfl, fun gs _ => ⟨gs ++ Glyph.ofText label, ?_, trivial⟩⟩
    simp [Operation.apply, Operation.primitive?, ordinary, trail, Value.glyphs?_ofGlyphs]
  budget := budget

/-- The first loop goes round twice; the second one has one jump left of its three, the third one none. -/
theorem run_loops_trailing :
    (([trailing "a" 2, trailing "b" 3, trailing "c" 1]).map Loop.label).Nodup ∧
      ((fresh ([trailing "a" 2, trailing "b" 3, trailing "c" 1].flatMap Loop.ops)
        ⟨.text "-", "string"⟩ none).run 0).1 = .at 9 ∧
      ((fresh ([trailing "a" 2, trailing "b" 3, trailing "c" 1].flatMap Loop.ops)
        ⟨.text "-", "string"⟩ none).run 0).2.dish = ⟨.text "-aaabbc", "string"⟩ := by
  have distinct : (([trailing "a" 2, trailing "b" 3, trailing "c" 1]).map Loop.label).Nodup := by
    decide
  have trailed : Loop.outcome [] [trailing "a" 2, trailing "b" 3, trailing "c" 1] (Glyph.ofText "-") =
      Glyph.ofText "-aaabbc" := by decide +kernel
  obtain ⟨stop, dish, -⟩ :=
    run_loops [trailing "a" 2, trailing "b" 3, trailing "c" 1] distinct (Glyph.ofText "-") trivial
  rw [trailed, Value.ofGlyphs_ofText, Value.ofGlyphs_ofText] at dish
  rw [Value.ofGlyphs_ofText] at stop
  exact ⟨distinct, stop, dish⟩

end Machine

end Run

end Kitchen

import Kitchen.Proofs.Larder.Basic
import Mathlib.Data.List.Nodup

namespace Kitchen

open Run

namespace Larder

variable {l l' l₁ l₂ : Larder} {refs : List Nat} {args : List Arg} {r : Nat}

-- Nothing was done but to make arguments, and the maps among these are different new ones.
structure Makes (l : Larder) (args : List Arg) (l' : Larder) : Prop where
  slips : l'.slips = l.slips
  slipCount : l'.slipCount = l.slipCount
  changes : l'.changes = l.changes
  maps : ∀ c < l.mapCount, l'.maps c = l.maps c
  mapCount : l.mapCount ≤ l'.mapCount
  new : ∀ c ∈ cellsOf args, l.mapCount ≤ c ∧ c < l'.mapCount
  nodup : (cellsOf args).Nodup

theorem Makes.spares (makes : l.Makes args l') : l.Spares [] l' where
  slips r _ _ := congrFun makes.slips r
  maps c made _ := makes.maps c made
  cells _ mem := nomatch mem
  slipCount := Nat.le_of_eq makes.slipCount.symm
  mapCount := makes.mapCount
  changes := .of_eq makes.changes

/-- Plain arguments are there without being made. -/
theorem Makes.plain (l : Larder) (none : cellsOf args = []) : l.Makes args l where
  slips := rfl
  slipCount := rfl
  changes := rfl
  maps _ _ := rfl
  mapCount := Nat.le_refl _
  new c mem := by
    rw [none] at mem
    cases mem
  nodup := by
    rw [none]
    exact List.nodup_nil

theorem Makes.cons {a : Arg} (first : l.Makes [a] l₁) (rest : l₁.Makes args l₂) :
    l.Makes (a :: args) l₂ where
  slips := rest.slips.trans first.slips
  slipCount := rest.slipCount.trans first.slipCount
  changes := rest.changes.trans first.changes
  maps c made := (rest.maps c (Nat.lt_of_lt_of_le made first.mapCount)).trans (first.maps c made)
  mapCount := Nat.le_trans first.mapCount rest.mapCount
  new c mem := by
    have later := rest.mapCount
    rw [cellsOf_cons] at mem
    rcases List.mem_append.mp mem with here | there
    · have := first.new c here
      omega
    · have := rest.new c there
      have := first.mapCount
      omega
  nodup := by
    rw [cellsOf_cons]
    refine List.nodup_append'.mpr ⟨first.nodup, rest.nodup, ?_⟩
    intro c here there
    have := first.new c here
    have := rest.new c there
    omega

theorem makeArg_makes (l : Larder) (v : Value) :
    l.Makes [(l.makeArg v).1] (l.makeArg v).2 ∧ (l.makeArg v).2.value (l.makeArg v).1 = v := by
  cases v with
  | map es =>
    refine ⟨⟨rfl, rfl, rfl, ?_, Nat.le_succ _, ?_, List.nodup_singleton _⟩, ?_⟩
    · intro c made
      exact Function.update_of_ne (Nat.ne_of_lt made) _ _
    · intro c mem
      obtain rfl := List.mem_singleton.mp mem
      exact ⟨Nat.le_refl _, Nat.lt_succ_self _⟩
    · exact congrArg Value.map (Function.update_self _ _ _)
  | _ => exact ⟨.plain l rfl, rfl⟩

theorem makeArgs_cons (l : Larder) (v : Value) (vs : List Value) :
    l.makeArgs (v :: vs) =
      ((l.makeArg v).1 :: ((l.makeArg v).2.makeArgs vs).1, ((l.makeArg v).2.makeArgs vs).2) := rfl

theorem makeArgs_makes (l : Larder) (vs : List Value) :
    l.Makes (l.makeArgs vs).1 (l.makeArgs vs).2 ∧ (l.makeArgs vs).1.map (l.makeArgs vs).2.value = vs := by
  induction vs generalizing l with
  | nil => exact ⟨.plain l rfl, rfl⟩
  | cons v vs ih =>
    obtain ⟨first, value⟩ := l.makeArg_makes v
    obtain ⟨rest, values⟩ := ih (l.makeArg v).2
    rw [makeArgs_cons]
    refine ⟨first.cons rest, ?_⟩
    -- The first argument is as it was made, since the others are made elsewhere.
    have kept := rest.spares.values fun c mem => (first.new c mem).2
    rw [List.map_singleton, List.map_singleton, value] at kept
    rw [List.map_cons, List.singleton_inj.mp kept, values]

structure Fresh (l : Larder) (refs : List Nat) (l' : Larder) : Prop where
  spares : l.Spares [] l'
  tidy : l'.Tidy refs
  slips : ∀ r ∈ refs, l.slipCount ≤ r
  maps : ∀ r ∈ refs, ∀ c ∈ l'.cells r, l.mapCount ≤ c
  changes : l'.changes = l.changes

theorem make_fresh (l : Larder) (op : Operation) :
    l.Fresh [(l.make op).1] (l.make op).2 ∧ (l.make op).2.operation (l.make op).1 = op := by
  obtain ⟨makes, values⟩ := l.makeArgs_makes op.args
  unfold make
  generalize l.makeArgs op.args = made at makes values
  obtain ⟨args, l₁⟩ := made
  have slip : Function.update l₁.slips l₁.slipCount (⟨op, args⟩ : Slip) l₁.slipCount = ⟨op, args⟩ :=
    Function.update_self _ _ _
  have count : l.slipCount = l₁.slipCount := makes.slipCount.symm
  refine ⟨⟨⟨?_, ?_, nofun, ?_, makes.mapCount, .of_eq makes.changes⟩, ?_, ?_, ?_, makes.changes⟩, ?_⟩
  · intro r made _
    have other : r ≠ l₁.slipCount := by omega
    exact (Function.update_of_ne other _ _).trans (congrFun makes.slips r)
  · exact fun c made _ => makes.maps c made
  · exact Nat.le_succ_of_le (Nat.le_of_eq count)
  · constructor
    · intro r mem
      obtain rfl := List.mem_singleton.mp mem
      exact Nat.lt_succ_self _
    · intro r mem c here
      obtain rfl := List.mem_singleton.mp mem
      unfold cells at here
      dsimp only at here
      rw [slip] at here
      exact (makes.new c here).2
    · exact List.nodup_singleton _
    · intro r mem
      obtain rfl := List.mem_singleton.mp mem
      unfold cells
      dsimp only
      rw [slip]
      exact makes.nodup
    · intro r mem r' mem' other
      rw [List.mem_singleton] at mem mem'
      exact absurd (mem.trans mem'.symm) other
  · intro r mem
    obtain rfl := List.mem_singleton.mp mem
    exact Nat.le_of_eq count
  · intro r mem c here
    obtain rfl := List.mem_singleton.mp mem
    unfold cells at here
    dsimp only at here
    rw [slip] at here
    exact (makes.new c here).1
  · unfold operation
    dsimp only
    rw [slip]
    exact congrArg (fun vs => { op with args := vs }) values

theorem Fresh.cons (first : l.Fresh [r] l₁) (rest : l₁.Fresh refs l₂) : l.Fresh (r :: refs) l₂ := by
  have here : r < l₁.slipCount := first.tidy.slips r (List.mem_singleton_self r)
  have made : l₂.cells r = l₁.cells r := rest.spares.cells_other here List.not_mem_nil
  have below : ∀ c ∈ l₂.cells r, c < l₁.mapCount := by
    rw [made]
    exact first.tidy.maps r (List.mem_singleton_self r)
  have apart : ∀ r' ∈ refs, (l₂.cells r).Disjoint (l₂.cells r') := by
    intro r' mem c here there
    have := below c here
    have := rest.maps r' mem c there
    omega
  refine ⟨first.spares.trans rest.spares, ?_, ?_, ?_, rest.changes.trans first.changes⟩
  · constructor
    · refine List.forall_mem_cons.mpr ⟨?_, rest.tidy.slips⟩
      exact Nat.lt_of_lt_of_le here rest.spares.slipCount
    · refine List.forall_mem_cons.mpr ⟨?_, rest.tidy.maps⟩
      exact fun c mem => Nat.lt_of_lt_of_le (below c mem) rest.spares.mapCount
    · refine List.nodup_cons.mpr ⟨?_, rest.tidy.nodup⟩
      intro mem
      exact Nat.not_lt.mpr (rest.slips r mem) here
    · refine List.forall_mem_cons.mpr ⟨?_, rest.tidy.each⟩
      rw [made]
      exact first.tidy.each r (List.mem_singleton_self r)
    · intro r₁ mem₁ r₂ mem₂ other
      rcases List.mem_cons.mp mem₁ with first₁ | rest₁ <;> rcases List.mem_cons.mp mem₂ with first₂ | rest₂
      · exact absurd (first₁.trans first₂.symm) other
      · rw [first₁]
        exact apart r₂ rest₂
      · rw [first₂]
        exact fun c there here => apart r₁ rest₁ here there
      · exact rest.tidy.apart r₁ rest₁ r₂ rest₂ other
  · refine List.forall_mem_cons.mpr ⟨first.slips r (List.mem_singleton_self r), ?_⟩
    exact fun r' mem => Nat.le_trans first.spares.slipCount (rest.slips r' mem)
  · refine List.forall_mem_cons.mpr ⟨?_, ?_⟩
    · rw [made]
      exact first.maps r (List.mem_singleton_self r)
    · exact fun r' mem c here => Nat.le_trans first.spares.mapCount (rest.maps r' mem c here)

theorem makeAll_cons (l : Larder) (op : Operation) (ops : List Operation) :
    l.makeAll (op :: ops) =
      ((l.make op).1 :: ((l.make op).2.makeAll ops).1, ((l.make op).2.makeAll ops).2) := rfl

/-- Operations that are made are tidy, and are what they were made from. -/
theorem makeAll_fresh (l : Larder) (ops : List Operation) :
    l.Fresh (l.makeAll ops).1 (l.makeAll ops).2 ∧
      (l.makeAll ops).1.map (l.makeAll ops).2.operation = ops := by
  induction ops generalizing l with
  | nil => exact ⟨⟨.refl _ _, ⟨nofun, nofun, List.nodup_nil, nofun, nofun⟩, nofun, nofun, rfl⟩, rfl⟩
  | cons op ops ih =>
    obtain ⟨first, same⟩ := l.make_fresh op
    obtain ⟨rest, others⟩ := ih (l.make op).2
    rw [makeAll_cons]
    refine ⟨first.cons rest, ?_⟩
    have kept := first.tidy.operations rest.spares
    rw [List.map_singleton, List.map_singleton, same] at kept
    rw [List.map_cons, List.singleton_inj.mp kept, others]

theorem cloneAll_fresh (l : Larder) (refs : List Nat) :
    l.Fresh (l.cloneAll refs).1 (l.cloneAll refs).2 ∧
      (l.cloneAll refs).1.map (l.cloneAll refs).2.operation = refs.map l.operation :=
  l.makeAll_fresh _

-- Arguments of several operations were made before, and are what the arguments of these were.
structure Keeps (l : Larder) (firsts : List (List Arg)) (ops : List Operation) : Prop where
  maps : ∀ args ∈ firsts, ∀ c ∈ cellsOf args, c < l.mapCount
  values : firsts.map (·.map l.value) = ops.map (·.args)

theorem Keeps.spared {firsts : List (List Arg)} {ops : List Operation} (keeps : l.Keeps firsts ops)
    (mapCount : l.mapCount ≤ l'.mapCount)
    (maps : ∀ args ∈ firsts, ∀ c ∈ cellsOf args, l'.maps c = l.maps c) : l'.Keeps firsts ops where
  maps args mem c here := Nat.lt_of_lt_of_le (keeps.maps args mem c here) mapCount
  values := by
    rw [← keeps.values]
    exact List.map_congr_left fun args mem => values_congr (maps args mem)

theorem copyAll_cons (l : Larder) (r : Nat) (refs : List Nat) :
    l.copyAll (r :: refs) =
      ((l.makeArgs (l.operation r).args).1 :: ((l.makeArgs (l.operation r).args).2.copyAll refs).1,
        ((l.makeArgs (l.operation r).args).2.copyAll refs).2) := rfl

theorem copyAll_keeps (l : Larder) (tidy : l.Tidy refs) :
    l.Spares [] (l.copyAll refs).2 ∧ (l.copyAll refs).2.Keeps (l.copyAll refs).1 (refs.map l.operation) := by
  induction refs generalizing l with
  | nil => exact ⟨.refl _ _, ⟨nofun, rfl⟩⟩
  | cons r refs ih =>
    obtain ⟨makes, values⟩ := l.makeArgs_makes (l.operation r).args
    have rest : l.Tidy refs := tidy.sublist (List.sublist_cons_self r refs)
    have spares₁ := makes.spares
    obtain ⟨spares, keeps⟩ := ih _ (rest.spared (spares₁.mono (List.nil_subset _) rest.slips))
    rw [copyAll_cons]
    refine ⟨spares₁.trans spares, List.forall_mem_cons.mpr ⟨?_, keeps.maps⟩, ?_⟩
    · exact fun c mem => Nat.lt_of_lt_of_le (makes.new c mem).2 spares.mapCount
    · have kept := spares.values fun c mem => (makes.new c mem).2
      rw [List.map_cons, kept, values, keeps.values, rest.operations spares₁]
      rfl

structure Restores (l : Larder) (refs : List Nat) (firsts : List (List Arg)) (l' : Larder) : Prop where
  slips : ∀ r ∉ refs, l'.slips r = l.slips r
  maps : ∀ c < l.mapCount, l'.maps c = l.maps c
  slipCount : l'.slipCount = l.slipCount
  mapCount : l.mapCount ≤ l'.mapCount
  new : ∀ r ∈ refs, ∀ c ∈ l'.cells r, l.mapCount ≤ c ∧ c < l'.mapCount
  each : ∀ r ∈ refs, (l'.cells r).Nodup
  apart : ∀ r ∈ refs, ∀ r' ∈ refs, r ≠ r' → (l'.cells r).Disjoint (l'.cells r')
  changes : Changed (fun s => ∃ r ∈ refs, s = .slip r) l l'
  operations : ∀ p ∈ firsts.zip refs,
    l'.operation p.2 = { (l.slips p.2).form with args := p.1.map l.value }

theorem refresh_restores (l : Larder) (r : Nat) (first : List Arg) :
    l.Restores [r] [first] (l.refresh r first) := by
  obtain ⟨makes, values⟩ := l.makeArgs_makes (first.map l.value)
  unfold refresh
  generalize l.makeArgs (first.map l.value) = made at makes values
  obtain ⟨args, l₁⟩ := made
  have slip : (l₁.putArgs r args).slips r = { l.slips r with args } := by
    rw [← makes.slips]
    exact Function.update_self _ _ _
  have cells : (l₁.putArgs r args).cells r = cellsOf args := by
    unfold Larder.cells
    rw [slip]
  constructor
  case slips =>
    intro r' other
    rw [← makes.slips]
    exact Function.update_of_ne (List.ne_of_not_mem_cons other) _ _
  case maps => exact makes.maps
  case slipCount => exact makes.slipCount
  case mapCount => exact makes.mapCount
  case new =>
    intro r' mem
    obtain rfl := List.mem_singleton.mp mem
    rw [cells]
    exact makes.new
  case each =>
    intro r' mem
    obtain rfl := List.mem_singleton.mp mem
    rw [cells]
    exact makes.nodup
  case apart =>
    intro r₁ mem₁ r₂ mem₂ other
    exact absurd ((List.mem_singleton.mp mem₁).trans (List.mem_singleton.mp mem₂).symm) other
  case changes =>
    exact ⟨[.slip r], congrArg (_ :: ·) makes.changes, fun s mem => ⟨r, List.mem_singleton_self r,
      List.mem_singleton.mp mem⟩⟩
  case operations =>
    intro p mem
    obtain rfl := List.mem_singleton.mp mem
    unfold operation
    dsimp only
    rw [slip]
    exact congrArg (fun vs => { (l.slips r).form with args := vs }) values

theorem Restores.cons {first : List Arg} {firsts : List (List Arg)} (head : l.Restores [r] [first] l₁)
    (rest : l₁.Restores refs firsts l₂) (other : r ∉ refs)
    (made : ∀ first ∈ firsts, ∀ c ∈ cellsOf first, c < l.mapCount) :
    l.Restores (r :: refs) (first :: firsts) l₂ := by
  have here : r ∈ [r] := List.mem_singleton_self r
  have slip : l₂.slips r = l₁.slips r := rest.slips r other
  have cells : l₂.cells r = l₁.cells r := by
    unfold Larder.cells
    rw [slip]
  have differs : ∀ {r'}, r' ∈ refs → r' ∉ [r] := by
    intro r' mem same
    rw [List.mem_singleton.mp same] at mem
    exact other mem
  have apart : ∀ r' ∈ refs, (l₂.cells r).Disjoint (l₂.cells r') := by
    intro r' mem c in₁ in₂
    rw [cells] at in₁
    have := head.new r here c in₁
    have := rest.new r' mem c in₂
    omega
  constructor
  case slips =>
    intro r' out
    rw [rest.slips r' fun mem => out (List.mem_cons_of_mem _ mem)]
    exact head.slips r' fun mem => out (List.mem_singleton.mp mem ▸ List.mem_cons_self)
  case maps => exact fun c made => (rest.maps c (Nat.lt_of_lt_of_le made head.mapCount)).trans (head.maps c made)
  case slipCount => exact rest.slipCount.trans head.slipCount
  case mapCount => exact Nat.le_trans head.mapCount rest.mapCount
  case new =>
    have := rest.mapCount
    have := head.mapCount
    refine List.forall_mem_cons.mpr ⟨?_, ?_⟩
    · intro c mem
      rw [cells] at mem
      have := head.new r here c mem
      omega
    · intro r' mem c mem'
      have := rest.new r' mem c mem'
      omega
  case each =>
    refine List.forall_mem_cons.mpr ⟨?_, rest.each⟩
    rw [cells]
    exact head.each r here
  case apart =>
    intro r₁ mem₁ r₂ mem₂ ne
    rcases List.mem_cons.mp mem₁ with first₁ | rest₁ <;> rcases List.mem_cons.mp mem₂ with first₂ | rest₂
    · exact absurd (first₁.trans first₂.symm) ne
    · rw [first₁]
      exact apart r₂ rest₂
    · rw [first₂]
      exact fun c there here => apart r₁ rest₁ here there
    · exact rest.apart r₁ rest₁ r₂ rest₂ ne
  case changes =>
    refine (head.changes.mono ?_).trans (rest.changes.mono ?_)
    · rintro s ⟨r', among, same⟩
      exact ⟨r', List.mem_singleton.mp among ▸ List.mem_cons_self, same⟩
    · rintro s ⟨r', among, same⟩
      exact ⟨r', List.mem_cons_of_mem _ among, same⟩
  case operations =>
    intro p mem
    rcases List.mem_cons.mp mem with rfl | later
    · -- What was given to the first operation stays as it is.
      have kept : l₂.operation r = l₁.operation r :=
        operation_congr slip fun c in₁ => rest.maps c (head.new r here c in₁).2
      exact kept.trans (head.operations (first, r) List.mem_cons_self)
    · have among := List.of_mem_zip later
      rw [rest.operations p later, head.slips p.2 (differs among.2)]
      have values := values_congr fun c mem => head.maps c (made p.1 among.1 c mem)
      rw [values]

theorem restore_restores (l : Larder) {firsts : List (List Arg)} (nodup : refs.Nodup)
    (length : firsts.length = refs.length) (made : ∀ first ∈ firsts, ∀ c ∈ cellsOf first, c < l.mapCount) :
    l.Restores refs firsts (l.restore refs firsts) := by
  induction refs generalizing l firsts with
  | nil =>
    obtain rfl := List.length_eq_zero_iff.mp length
    exact ⟨fun _ _ => rfl, fun _ _ => rfl, rfl, Nat.le_refl _, nofun, nofun, nofun, .of_eq rfl, nofun⟩
  | cons r refs ih =>
    cases firsts with
    | nil => cases length
    | cons first firsts =>
      obtain ⟨other, nodup⟩ := List.nodup_cons.mp nodup
      have head := l.refresh_restores r first
      have made' : ∀ first ∈ firsts, ∀ c ∈ cellsOf first, c < l.mapCount :=
        fun first mem => made first (List.mem_cons_of_mem _ mem)
      have rest := ih (l.refresh r first) nodup (Nat.succ.inj length) fun first mem c here =>
        Nat.lt_of_lt_of_le (made' first mem c here) head.mapCount
      exact head.cons rest other made'

/-- Operations that were restored are tidy. -/
theorem Restores.tidy {firsts : List (List Arg)} (restores : l.Restores refs firsts l') (nodup : refs.Nodup)
    (made : ∀ r ∈ refs, r < l.slipCount) : l'.Tidy refs where
  slips r mem := Nat.lt_of_lt_of_eq (made r mem) restores.slipCount.symm
  maps r mem c here := (restores.new r mem c here).2
  nodup := nodup
  each := restores.each
  apart := restores.apart

/-- What is restored are the arguments of the operations that were copied, and nothing else. -/
theorem Restores.restored {firsts : List (List Arg)} {ops : List Operation}
    (restores : l.Restores refs firsts l') (keeps : l.Keeps firsts ops)
    (length : firsts.length = refs.length) :
    ops.zipWith (fun first op => { op with args := first.args }) (refs.map l.operation) =
      refs.map l'.operation := by
  have values := keeps.values
  have operations := restores.operations
  clear restores keeps
  induction refs generalizing firsts ops with
  | nil => rw [List.map_nil, List.zipWith_nil_right, List.map_nil]
  | cons r refs ih =>
    cases firsts with
    | nil => cases length
    | cons first firsts =>
      cases ops with
      | nil => cases values
      | cons op ops =>
        obtain ⟨same, values⟩ := List.cons.inj values
        have args : first.map l.value = op.args := same
        have here := operations (first, r) List.mem_cons_self
        have rest := ih (Nat.succ.inj length) values fun p mem => operations p (List.mem_cons_of_mem _ mem)
        rw [List.map_cons, List.map_cons, List.zipWith_cons_cons, rest, here, args]
        rfl

-- Operations were made after a first larder, with copies of the arguments that they had first, and nothing of
-- what was in the first larder has been changed since.
structure Stocked (base : Larder) (refs : List Nat) (firsts : List (List Arg)) (ops : List Operation)
    (l : Larder) : Prop where
  spares : base.Spares [] l
  new : ∀ r ∈ refs, base.slipCount ≤ r
  made : ∀ r ∈ refs, r < l.slipCount
  nodup : refs.Nodup
  keeps : l.Keeps firsts ops
  length : firsts.length = refs.length

variable {base : Larder} {firsts : List (List Arg)} {ops : List Operation}

theorem Fresh.stocked (fresh : base.Fresh refs l) :
    base.Stocked refs (l.copyAll refs).1 (refs.map l.operation) (l.copyAll refs).2 := by
  obtain ⟨spares, keeps⟩ := l.copyAll_keeps fresh.tidy
  have length := congrArg List.length keeps.values
  simp only [List.length_map] at length
  exact ⟨fresh.spares.trans spares, fresh.slips,
    fun r mem => Nat.lt_of_lt_of_le (fresh.tidy.slips r mem) spares.slipCount, fresh.tidy.nodup, keeps, length⟩

/-- The operations that were restored are what they were first. Whatever is done to them then, they can be
restored again. -/
theorem Stocked.restore (stocked : base.Stocked refs firsts ops l) :
    (l.restore refs firsts).Tidy refs ∧
      ops.zipWith (fun first op => { op with args := first.args }) (refs.map l.operation) =
        refs.map (l.restore refs firsts).operation ∧
      ∀ l', (l.restore refs firsts).Spares refs l' → base.Stocked refs firsts ops l' := by
  have restores := l.restore_restores stocked.nodup stocked.length stocked.keeps.maps
  have tidy := restores.tidy stocked.nodup stocked.made
  refine ⟨tidy, restores.restored stocked.keeps stocked.length, ?_⟩
  intro l' spares
  generalize l.restore refs firsts = restored at restores tidy spares
  have grown := Nat.le_trans stocked.spares.mapCount restores.mapCount
  have since : base.Spares [] restored := by
    refine ⟨?_, ?_, nofun, ?_, grown, ?_⟩
    · intro r made _
      have other : r ∉ refs := fun mem => Nat.not_lt.mpr (stocked.new r mem) made
      rw [restores.slips r other, stocked.spares.slips r made List.not_mem_nil]
    · intro c made _
      rw [restores.maps c (Nat.lt_of_lt_of_le made stocked.spares.mapCount), stocked.spares.maps c made nofun]
    · exact Nat.le_trans stocked.spares.slipCount (Nat.le_of_eq restores.slipCount.symm)
    · refine stocked.spares.changes.trans (restores.changes.mono ?_)
      rintro s ⟨r, mem, rfl⟩
      exact .inr (stocked.new r mem)
  refine ⟨?_, stocked.new, fun r mem => ?_, stocked.nodup, ?_, stocked.length⟩
  · exact since.hidden spares stocked.new fun r mem c here =>
      Nat.le_trans stocked.spares.mapCount (restores.new r mem c here).1
  · exact Nat.lt_of_lt_of_le (tidy.slips r mem) spares.slipCount
  · -- The copies of the first arguments lie where the restored operations have none of theirs.
    refine stocked.keeps.spared (Nat.le_trans restores.mapCount spares.mapCount) fun args mem c here => ?_
    have made := stocked.keeps.maps args mem c here
    have apart : ∀ r ∈ refs, c ∉ restored.cells r := fun r among there =>
      Nat.not_lt.mpr (restores.new r among c there).1 made
    rw [spares.maps c (Nat.lt_of_lt_of_le made restores.mapCount) apart, restores.maps c made]

end Larder

end Kitchen

import Kitchen.Run.Control
import Mathlib.Data.List.Basic
import Mathlib.Logic.Function.Basic

namespace Kitchen

open Run

inductive Larder.Arg where
  | plain (v : Value)
  | apart (cell : Nat)

def Larder.Arg.cell? : Arg → Option Nat
  | .plain _ => none
  | .apart c => some c

structure Larder.Slip where
  form : Operation
  args : List Larder.Arg

inductive Larder.Spot where
  | slip (ref : Nat)
  | cell (cell : Nat)

structure Larder where
  slips : Nat → Larder.Slip
  maps : Nat → List (Value × Value)
  slipCount : Nat
  mapCount : Nat
  changes : List Larder.Spot

namespace Larder

def empty : Larder :=
  ⟨fun _ => ⟨⟨"", [], "", "", false, false, none⟩, []⟩, fun _ => [], 0, 0, []⟩

-- What an argument is.
def value (l : Larder) : Arg → Value
  | .plain v => v
  | .apart c => .map (l.maps c)

def operation (l : Larder) (r : Nat) : Operation :=
  { (l.slips r).form with args := (l.slips r).args.map l.value }

def cellsOf (args : List Arg) : List Nat :=
  args.filterMap Arg.cell?

theorem cellsOf_cons (a : Arg) (args : List Arg) : cellsOf (a :: args) = cellsOf [a] ++ cellsOf args :=
  @List.filterMap_append _ _ [a] _ _

def cells (l : Larder) (r : Nat) : List Nat :=
  cellsOf (l.slips r).args

-- A map is put apart for each argument that is one, also where a document has the same map stand for several.
def makeArg (l : Larder) : Value → Arg × Larder
  | .map es =>
    (.apart l.mapCount,
      { l with maps := Function.update l.maps l.mapCount es, mapCount := l.mapCount + 1 })
  | v => (.plain v, l)

def makeArgs (l : Larder) : List Value → List Arg × Larder
  | [] => ([], l)
  | v :: vs =>
    let (a, l) := l.makeArg v
    let (args, l) := l.makeArgs vs
    (a :: args, l)

-- Makes an operation.
def make (l : Larder) (op : Operation) : Nat × Larder :=
  let (args, l) := l.makeArgs op.args
  (l.slipCount,
    { l with slips := Function.update l.slips l.slipCount ⟨op, args⟩, slipCount := l.slipCount + 1 })

def makeAll (l : Larder) : List Operation → List Nat × Larder
  | [] => ([], l)
  | op :: ops =>
    let (r, l) := l.make op
    let (refs, l) := l.makeAll ops
    (r :: refs, l)

def cloneAll (l : Larder) (refs : List Nat) : List Nat × Larder :=
  l.makeAll (refs.map l.operation)

def copyAll (l : Larder) : List Nat → List (List Arg) × Larder
  | [] => ([], l)
  | r :: refs =>
    let (args, l) := l.makeArgs (l.operation r).args
    let (firsts, l) := l.copyAll refs
    (args :: firsts, l)

def putMap (l : Larder) (c : Nat) (es : List (Value × Value)) : Larder :=
  { l with maps := Function.update l.maps c es, changes := .cell c :: l.changes }

def putArgs (l : Larder) (r : Nat) (args : List Arg) : Larder :=
  { l with slips := Function.update l.slips r { l.slips r with args }, changes := .slip r :: l.changes }

def refresh (l : Larder) (r : Nat) (first : List Arg) : Larder :=
  let (args, l) := l.makeArgs (first.map l.value)
  l.putArgs r args

def restore (l : Larder) : List Nat → List (List Arg) → Larder
  | r :: refs, first :: firsts => (l.refresh r first).restore refs firsts
  | _, _ => l

def fillNeedle? (capture : Reference.Capture) (es : List (Value × Value)) :
    Option (List (Value × Value)) :=
  (Reference.textOf? (.map es)).map fun gs =>
    Value.insert (.text "string") (.ofGlyphs (capture.resolveText gs)) es

def fillArg (capture : Reference.Capture) (l : Larder) : Arg → Arg × Larder
  | .plain v => (.plain (capture.resolveValue v), l)
  | .apart c =>
    match fillNeedle? capture (l.maps c) with
    | some es => (.apart c, l.putMap c es)
    | none => (.apart c, l)

def fillArgs (capture : Reference.Capture) (l : Larder) : List Arg → List Arg × Larder
  | [] => ([], l)
  | a :: args =>
    let (a, l) := l.fillArg capture a
    let (args, l) := l.fillArgs capture args
    (a :: args, l)

def fill (capture : Reference.Capture) (l : Larder) (r : Nat) : Larder :=
  if (l.slips r).form.disabled then l
  else
    let (args, l) := l.fillArgs capture (l.slips r).args
    l.putArgs r args

def fillAll (capture : Reference.Capture) (l : Larder) : List Nat → Larder
  | [] => l
  | r :: refs => (l.fill capture r).fillAll capture refs

variable {l l' l₁ l₂ : Larder} {refs refs' : List Nat} {args : List Arg} {r : Nat}

-- Whether something belongs to operations: one of them, or a map among their arguments.
def Owns (l : Larder) (refs : List Nat) : Spot → Prop
  | .slip r => r ∈ refs
  | .cell c => ∃ r ∈ refs, c ∈ l.cells r

def Lacks (l : Larder) : Spot → Prop
  | .slip r => l.slipCount ≤ r
  | .cell c => l.mapCount ≤ c

def Changed (P : Spot → Prop) (l l' : Larder) : Prop :=
  ∃ more, l'.changes = more ++ l.changes ∧ ∀ s ∈ more, P s

-- From one larder to another, of all that was there only what belongs to some operations may have been changed;
-- and they have the same maps among their arguments as before.
structure Spares (refs : List Nat) (l l' : Larder) : Prop where
  slips : ∀ r < l.slipCount, r ∉ refs → l'.slips r = l.slips r
  maps : ∀ c < l.mapCount, (∀ r ∈ refs, c ∉ l.cells r) → l'.maps c = l.maps c
  cells : ∀ r ∈ refs, l'.cells r = l.cells r
  slipCount : l.slipCount ≤ l'.slipCount
  mapCount : l.mapCount ≤ l'.mapCount
  changes : Changed (fun s => l.Owns refs s ∨ l.Lacks s) l l'

-- The operations are different ones, with different maps among their arguments, and all of this was made.
structure Tidy (l : Larder) (refs : List Nat) : Prop where
  slips : ∀ r ∈ refs, r < l.slipCount
  maps : ∀ r ∈ refs, ∀ c ∈ l.cells r, c < l.mapCount
  nodup : refs.Nodup
  each : ∀ r ∈ refs, (l.cells r).Nodup
  apart : ∀ r ∈ refs, ∀ r' ∈ refs, r ≠ r' → (l.cells r).Disjoint (l.cells r')

theorem Changed.of_eq {P : Spot → Prop} (same : l'.changes = l.changes) : Changed P l l' :=
  ⟨[], same, fun _ mem => nomatch mem⟩

theorem Changed.mono {P Q : Spot → Prop} (changed : Changed P l l') (weaker : ∀ s, P s → Q s) :
    Changed Q l l' := by
  obtain ⟨more, changes, kind⟩ := changed
  exact ⟨more, changes, fun s mem => weaker s (kind s mem)⟩

theorem Changed.trans {P : Spot → Prop} (h : Changed P l l₁) (h' : Changed P l₁ l₂) : Changed P l l₂ := by
  obtain ⟨more, changes, kind⟩ := h
  obtain ⟨more', changes', kind'⟩ := h'
  refine ⟨more' ++ more, by rw [changes', changes, List.append_assoc], ?_⟩
  intro s mem
  rcases List.mem_append.mp mem with later | earlier
  · exact kind' s later
  · exact kind s earlier

theorem Spares.refl (refs : List Nat) (l : Larder) : l.Spares refs l where
  slips _ _ _ := rfl
  maps _ _ _ := rfl
  cells _ _ := rfl
  slipCount := Nat.le_refl _
  mapCount := Nat.le_refl _
  changes := .of_eq rfl

theorem Lacks.earlier {s : Spot} (lacks : l'.Lacks s) (slipCount : l.slipCount ≤ l'.slipCount)
    (mapCount : l.mapCount ≤ l'.mapCount) : l.Lacks s := by
  cases s with
  | slip r => exact Nat.le_trans slipCount lacks
  | cell c => exact Nat.le_trans mapCount lacks

theorem Spares.owns {s : Spot} (spares : l.Spares refs l') (owns : l'.Owns refs s) : l.Owns refs s := by
  cases s with
  | slip r => exact owns
  | cell c =>
    obtain ⟨r, mem, here⟩ := owns
    rw [spares.cells r mem] at here
    exact ⟨r, mem, here⟩

theorem Spares.trans (h : l.Spares refs l₁) (h' : l₁.Spares refs l₂) : l.Spares refs l₂ where
  slips r made other := by
    rw [h'.slips r (Nat.lt_of_lt_of_le made h.slipCount) other, h.slips r made other]
  maps c made other := by
    rw [h'.maps c (Nat.lt_of_lt_of_le made h.mapCount) fun r mem => h.cells r mem ▸ other r mem,
      h.maps c made other]
  cells r mem := (h'.cells r mem).trans (h.cells r mem)
  slipCount := Nat.le_trans h.slipCount h'.slipCount
  mapCount := Nat.le_trans h.mapCount h'.mapCount
  changes := h.changes.trans <| h'.changes.mono fun _ spot =>
    spot.imp h.owns fun lacks => lacks.earlier h.slipCount h.mapCount

/-- What belongs to other operations keeps its arguments, and so the maps among them. -/
theorem Spares.cells_other (spares : l.Spares refs l') (made : r < l.slipCount) (other : r ∉ refs) :
    l'.cells r = l.cells r := by
  unfold Larder.cells
  rw [spares.slips r made other]

/-- What may be changed of some operations may be changed of more. -/
theorem Spares.mono (spares : l.Spares refs l') (subset : refs ⊆ refs')
    (made : ∀ r ∈ refs', r < l.slipCount) : l.Spares refs' l' where
  slips r made other := spares.slips r made fun mem => other (subset mem)
  maps c made other := spares.maps c made fun r mem => other r (subset mem)
  cells r mem := by
    by_cases among : r ∈ refs
    · exact spares.cells r among
    · exact spares.cells_other (made r mem) among
  slipCount := spares.slipCount
  mapCount := spares.mapCount
  changes := spares.changes.mono fun s spot => spot.imp_left fun owns => by
    cases s with
    | slip r => exact subset owns
    | cell c =>
      obtain ⟨r, among, here⟩ := owns
      exact ⟨r, subset among, here⟩

/-- What is changed of operations that were made since was not there before. -/
theorem Spares.hidden (since : l.Spares [] l₁) (spares : l₁.Spares refs l₂)
    (slips : ∀ r ∈ refs, l.slipCount ≤ r) (cells : ∀ r ∈ refs, ∀ c ∈ l₁.cells r, l.mapCount ≤ c) :
    l.Spares [] l₂ where
  slips r made _ := by
    have other : r ∉ refs := fun mem => Nat.not_lt.mpr (slips r mem) made
    rw [spares.slips r (Nat.lt_of_lt_of_le made since.slipCount) other, since.slips r made (List.not_mem_nil)]
  maps c made _ := by
    have other : ∀ r ∈ refs, c ∉ l₁.cells r := fun r mem here => Nat.not_lt.mpr (cells r mem c here) made
    rw [spares.maps c (Nat.lt_of_lt_of_le made since.mapCount) other, since.maps c made nofun]
  cells _ mem := nomatch mem
  slipCount := Nat.le_trans since.slipCount spares.slipCount
  mapCount := Nat.le_trans since.mapCount spares.mapCount
  changes := by
    refine since.changes.trans (spares.changes.mono fun s spot => .inr ?_)
    rcases spot with owns | lacks
    · cases s with
      | slip r => exact slips r owns
      | cell c =>
        obtain ⟨r, among, here⟩ := owns
        exact cells r among c here
    · exact lacks.earlier since.slipCount since.mapCount

theorem value_congr {a : Arg} (same : ∀ c ∈ a.cell?, l'.maps c = l.maps c) : l'.value a = l.value a := by
  cases a with
  | plain v => rfl
  | apart c => exact congrArg Value.map (same c rfl)

theorem values_congr (same : ∀ c ∈ cellsOf args, l'.maps c = l.maps c) :
    args.map l'.value = args.map l.value := by
  apply List.map_congr_left
  intro a mem
  apply value_congr
  intro c here
  exact same c (List.mem_filterMap.mpr ⟨a, mem, here⟩)

theorem operation_congr (slip : l'.slips r = l.slips r) (same : ∀ c ∈ l.cells r, l'.maps c = l.maps c) :
    l'.operation r = l.operation r := by
  unfold operation
  rw [slip, values_congr same]

/-- An operation that shares no map with those that may be changed is as it was. -/
theorem Spares.operation (spares : l.Spares refs l') (made : r < l.slipCount) (other : r ∉ refs)
    (maps : ∀ c ∈ l.cells r, c < l.mapCount) (apart : ∀ r' ∈ refs, (l.cells r).Disjoint (l.cells r')) :
    l'.operation r = l.operation r :=
  operation_congr (spares.slips r made other) fun c here =>
    spares.maps c (maps c here) fun r' mem there => apart r' mem here there

theorem Spares.values (spares : l.Spares [] l') (maps : ∀ c ∈ cellsOf args, c < l.mapCount) :
    args.map l'.value = args.map l.value :=
  values_congr fun c here => spares.maps c (maps c here) nofun

theorem Tidy.spared (tidy : l.Tidy refs) (spares : l.Spares refs l') : l'.Tidy refs where
  slips r mem := Nat.lt_of_lt_of_le (tidy.slips r mem) spares.slipCount
  maps r mem c here := by
    rw [spares.cells r mem] at here
    exact Nat.lt_of_lt_of_le (tidy.maps r mem c here) spares.mapCount
  nodup := tidy.nodup
  each r mem := by
    rw [spares.cells r mem]
    exact tidy.each r mem
  apart r mem r' mem' other := by
    rw [spares.cells r mem, spares.cells r' mem']
    exact tidy.apart r mem r' mem' other

theorem Tidy.sublist (tidy : l.Tidy refs) (sublist : refs'.Sublist refs) : l.Tidy refs' where
  slips r mem := tidy.slips r (sublist.subset mem)
  maps r mem := tidy.maps r (sublist.subset mem)
  nodup := tidy.nodup.sublist sublist
  each r mem := tidy.each r (sublist.subset mem)
  apart r mem r' mem' := tidy.apart r (sublist.subset mem) r' (sublist.subset mem')

/-- Where nothing that was there is changed, tidy operations are as they were. -/
theorem Tidy.operations (tidy : l.Tidy refs) (spares : l.Spares [] l') :
    refs.map l'.operation = refs.map l.operation := by
  apply List.map_congr_left
  intro r mem
  exact spares.operation (tidy.slips r mem) List.not_mem_nil (tidy.maps r mem) nofun

end Larder

end Kitchen

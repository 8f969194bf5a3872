import Kitchen.Proofs.Run.Deeds
import Kitchen.Proofs.Run.Shape

namespace Kitchen.Run

def Stop.Lies (ops : List Operation) : Stop → Prop
  | .at p => 0 ≤ p ∧ p ≤ ops.length
  | .broken b => 0 ≤ b.place ∧ ∃ op, ops[b.place.toNat]? = some op ∧ op.disabled = false
  | .outOfRange => False
  | .overLimit _ | .unfinished => True

namespace Machine

variable {run : Machine → Stop × Machine} {start i : Int} {op : Operation} {m k : Machine}

theorem opAt_nonneg (hi : 0 ≤ i) (hl : i < m.ops.length) : m.opAt? i = m.ops[i.toNat]? := by
  simp only [opAt?, place_of_nonneg hi hl, Option.bind_some]

theorem opAt_some (hi : 0 ≤ i) (here : m.opAt? i = some op) : m.ops[i.toNat]? = some op := by
  rw [← opAt_nonneg hi (opAt_lt here), here]

/-- What stands at a place stood there before references were filled in. -/
theorem opAt_back (akin : OpsAkin m.ops k.ops) (here : k.opAt? i = some op) :
    ∃ op₀, m.opAt? i = some op₀ ∧ op₀.Akin op := by
  obtain ⟨n, place, there⟩ := opAt_place here
  obtain ⟨op₀, first, same⟩ := forall₂_back akin there
  rw [← akin.length_eq] at place
  exact ⟨op₀, by rw [opAt?, place]; exact first, same⟩

namespace Split

variable {s : Split}

theorem reach_lies {stop : Stop} {progress : Int} {ops : List Operation} (lies : stop.Lies ops)
    (reach : s.reach stop = .ok progress) : 0 ≤ progress ∧ progress ≤ ops.length := by
  cases stop with
  | «at» p =>
    cases reach
    exact lies
  | broken b =>
    obtain ⟨nonneg, op, here, -⟩ := lies
    have within := (List.getElem?_eq_some_iff.mp here).1
    rw [reach_broken] at reach
    split at reach
    · cases reach
      omega
    · cases reach
  | _ => cases reach

end Split

-- Before a round of an execution that did not start before the front, the place is not before the front; and
-- the operations have kept their shape.
structure Keeps (start : Int) (m : Machine) (i : Int) (k : Machine) : Prop where
  front : 0 ≤ start → 0 ≤ i
  ops : OpsAkin m.ops k.ops

structure Ends (start : Int) (m : Machine) (stop : Stop) (k : Machine) : Prop where
  lies : 0 ≤ start → stop.Lies m.ops
  ops : OpsAkin m.ops k.ops

abbrev Regular (run : Machine → Stop × Machine) : Prop := Upholds (fun _ _ => True) Ends run

theorem Regular.shape (regular : Regular run) : KeepsShape run :=
  fun n => (regular n trivial).ops

theorem Regular.lies (regular : Regular run) (n : Machine) : (run n).1.Lies n.ops :=
  (regular n trivial).lies (Int.le_refl 0)

/-- How far the tranches of a Fork come, measured from the operation after it. -/
theorem Split.serveAll_reach {s : Split} {ledger : Ledger} {h : Harvest} (regular : Regular run)
    (served : s.serveAll run 1 s.parts (s.opening ledger) = (none, h)) :
    0 ≤ h.progress ∧ h.progress ≤ s.body.length := by
  refine Split.serveAll_rule (fun h => 0 ≤ h.progress ∧ h.progress ≤ s.body.length)
    (fun _ _ => True) ⟨Int.le_refl 0, by simp [Split.opening]⟩ ?_ served
  intro number v h₁ halt h₂ opens inv serve
  cases serve with
  | @brought dish d stop m₁ progress w made ran reach get =>
    have lies := regular.lies (s.next number dish h₁)
    rw [ran, (opens dish made).ops regular.shape] at lies
    exact Split.reach_lies lies reach
  | _ => trivial

/-- A halt at an enabled operation is reported at its place. -/
theorem conclude_lies (halt : Halt) (k' : Machine) (ready : k.Ready start i op) (front : 0 ≤ i)
    (akin : OpsAkin m.ops k.ops) :
    (k'.conclude i op halt).Meets (fun _ _ => False) (fun stop _ => stop.Lies m.ops) := by
  -- The list that is reported on is the one at the start; the flags have not changed since.
  obtain ⟨op₀, here, same⟩ := forall₂_back akin (opAt_some front ready.here)
  have length : m.ops.length = k.ops.length := akin.length_eq
  have within := opAt_lt ready.here
  have enabled : op₀.disabled = false := by rw [← same.disabled, ready.enabled]
  unfold conclude
  cases halt with
  | failed f =>
    dsimp only
    split
    · exact ⟨front, by omega⟩
    · exact ⟨front, op₀, here, enabled⟩
  | broken b => exact ⟨front, op₀, here, enabled⟩
  | overLimit l => trivial
  | unfinished => trivial

/-- Executions stay in their list and end in it. -/
theorem places : Contract (fun _ _ => True) Keeps Ends where
  unbegun _ := ⟨fun _ => trivial, .refl _⟩
  begins _ := ⟨fun front => front, .refl _⟩
  unended inv := ⟨fun _ => trivial, inv.ops⟩
  opens _ _ _ := trivial
  round {run start m i k t} keeps inv rounds := by
    have regular : Regular run := keeps
    have shaped : Upholds (fun _ _ => True) (fun _ m _ k => OpsAkin m.ops k.ops) run :=
      fun n _ => regular.shape n
    have length : m.ops.length = k.ops.length := inv.ops.length_eq
    have next : t.Meets (fun _ k => OpsAkin m.ops k.ops) (fun _ k => OpsAkin m.ops k.ops) :=
      shape.round shaped inv.ops rounds
    -- Every place that a round leads to lies at the front or behind it, and every stop within the list.
    cases rounds with
    | completed beyond => exact ⟨fun _ => ⟨by omega, by omega⟩, next⟩
    | outside within missing =>
      refine ⟨fun front => ?_, next⟩
      have := inv.front front
      rw [opAt_nonneg this within, List.getElem?_eq_none_iff] at missing
      omega
    | skipped here disabled => exact ⟨fun front => by have := inv.front front; omega, next⟩
    | paused here enabled pauses =>
      have within := opAt_lt here
      exact ⟨fun front => ⟨inv.front front, by omega⟩, next⟩
    | exceeded here enabled goes excess => exact ⟨fun _ => trivial, next⟩
    | @failed op f k' ready acts =>
      have lies := fun front => conclude_lies (.failed f) k' ready (inv.front front) inv.ops
      obtain ⟨stop, d, ended⟩ := conclude_ended k' i op (.failed f)
      rw [ended] at lies next ⊢
      exact ⟨lies, next⟩
    | @acted op j k' ready acts =>
      refine ⟨fun front => ?_, next⟩
      have := inv.front front
      rcases acts.goes with ⟨hj, -⟩ | ⟨hj, -⟩ | ⟨label, budget, place, hj, -⟩ <;> omega
    | @halted op halt k' ready fork serves =>
      have lies := fun front => conclude_lies halt k' ready (inv.front front) inv.ops
      obtain ⟨stop, d, ended⟩ := conclude_ended k' i op halt
      rw [ended] at lies next ⊢
      exact ⟨lies, next⟩
    | @served op j k' ready fork serves =>
      refine ⟨fun front => ?_, next⟩
      have := inv.front front
      generalize hr : Except.ok j = r at serves
      cases serves with
      | joined get cut served set =>
        cases hr
        -- The last tranche cannot have stopped before its own front.
        have far := Split.serveAll_reach regular served
        omega
      | _ => cases hr

theorem regular_execute (depth : Nat) : Regular (execute depth 0) :=
  places.upholds depth

theorem regular_run : Regular (Machine.run 0) :=
  places.upholds_run

end Machine

end Kitchen.Run

import Kitchen.Proofs.Run.Captures

/-!
Which pausing operations a run carries out. An execution only carries out such an operation at the place
where it starts. For a tranche this is the operation right after its Fork, so that a pause there does not
hold the run.
-/
namespace Kitchen.Run

namespace Ledger

def Adds (P : Operation → Prop) (l l' : Ledger) : Prop :=
  ∀ i op, (i, op) ∈ l'.dispatches → (i, op) ∈ l.dispatches ∨ P op

variable {P Q : Operation → Prop} {l l' l'' : Ledger}

theorem Adds.same (h : l'.dispatches = l.dispatches) : Adds P l l' := by
  intro i op mem
  rw [h] at mem
  exact .inl mem

theorem Adds.trans (h : Adds P l l') (h' : Adds P l' l'') : Adds P l l'' := by
  intro i op mem
  rcases h' i op mem with earlier | added
  · exact h i op earlier
  · exact .inr added

theorem Adds.mono (weaker : ∀ op, P op → Q op) (h : Adds P l l') : Adds Q l l' := by
  intro i op mem
  exact (h i op mem).imp_right (weaker op)

theorem adds_note (l : Ledger) (e : Event)
    (other : ∀ i op, e ≠ .dispatched i op := by exact fun _ _ => Event.noConfusion) :
    Adds P l (l.note e) :=
  .same (l.note_dispatches e other)

theorem adds_spans : Spans (Adds P) where
  refl l := .same rfl
  trans := Adds.trans
  tranche l number total := l.adds_note _
  ignored l number b := l.adds_note _

end Ledger

namespace Machine

variable {start i : Int} {op : Operation} {m k : Machine} {own path : List (List Text.Glyph)}

theorem enact_dispatches (m : Machine) (deed : Deed) :
    (m.enact deed).ledger.dispatches = m.ledger.dispatches := by
  cases deed with
  | stay => exact m.ledger.note_dispatches _ fun _ _ => Event.noConfusion
  | leap label place => exact m.ledger.note_dispatches _ fun _ _ => Event.noConfusion
  | capture texts => exact m.ledger.note_dispatches (.published _) fun _ _ => Event.noConfusion
  | _ => rfl

theorem Acts.dispatches {r : Except Failure Int} (acts : m.Acts i op r k) :
    k.ledger.dispatches = m.ledger.dispatches := by
  cases acts with
  | enacted primitive other get decided => exact enact_dispatches _ _
  | _ => rfl

def Comes (start : Int) (m : Machine) (op : Operation) : Prop :=
  ∃ place path k, Reaches start m place path op k

theorem Ready.adds (collects : Collects start m own i k) (ready : k.Ready start i op) :
    Ledger.Adds (Comes start m) k.ledger (k.enter i op).ledger := by
  intro j op' mem
  have noted : (k.enter i op).ledger.dispatches = k.ledger.dispatches ++ [(i, op)] :=
    Ledger.dispatched_dispatches k.ledger i op
  rw [noted, List.mem_append, List.mem_singleton] at mem
  rcases mem with earlier | new
  · exact .inl earlier
  · cases new
    exact .inr ⟨i, own, k, .here collects ready⟩

/-- What a round notes as dispatched is its operation, or was dispatched in one of its tranches. -/
theorem Rounds.adds {t : Turn} (collects : Collects start m own i k)
    (inner : ∀ child, k.Opens (Machine.run 0) start i child →
      Ledger.Adds (Comes 0 child) child.ledger (Machine.run 0 child).2.ledger)
    (rounds : k.Rounds (Machine.run 0) start i t) :
    Ledger.Adds (Comes start m) k.ledger t.machine.ledger := by
  have acted : ∀ {op r k'}, k.Ready start i op → (k.enter i op).Acts i op r k' →
      Ledger.Adds (Comes start m) k.ledger k'.ledger := by
    intro op r k' ready acts
    exact (ready.adds collects).trans (.same acts.dispatches)
  -- A tranche is a run of its own; what it comes by lies behind the Fork in the list of `m`.
  have served : ∀ {op r k'}, k.Ready start i op → op.primitive? = some .fork →
      (k.enter i op).Serves (Machine.run 0) i op r k' →
      Ledger.Adds (Comes start m) k.ledger k'.ledger := by
    intro op r k' ready fork serves
    refine (ready.adds collects).trans (serves.spans Ledger.adds_spans ?_)
    intro v d s child get cut opens
    have tranche : k.Opens (Machine.run 0) start i child := .intro ready fork get cut opens
    apply (inner child tranche).mono
    rintro op' ⟨place, path, k₁, reaches⟩
    exact ⟨i + 1 + place, own ++ path, k₁, .within collects tranche reaches⟩
  cases rounds with
  | completed beyond => exact k.ledger.adds_note _
  | outside within missing => exact .same rfl
  | skipped here disabled => exact k.ledger.adds_note _
  | paused here enabled pauses => exact k.ledger.adds_note _
  | exceeded here enabled goes excess => exact .same rfl
  | failed ready acts =>
    rw [conclude_ledger]
    exact acted ready acts
  | acted ready acts =>
    have added := acted ready acts
    exact added
  | halted ready fork serves =>
    rw [conclude_ledger]
    exact served ready fork serves
  | served ready fork serves =>
    have added := served ready fork serves
    exact added

/-- All that a run notes as dispatched, it set about itself or in a tranche. -/
theorem arrivals : Stepwise (fun _ _ => True)
    (fun start m i k => (∃ own, Collects start m own i k) ∧
      Ledger.Adds (Comes start m) m.ledger k.ledger)
    (fun start m _ k => Ledger.Adds (Comes start m) m.ledger k.ledger) where
  begins {start m} _ := ⟨⟨[], .begins⟩, m.ledger.adds_note _⟩
  unended inv := inv.2
  opens _ _ := trivial
  round {start m i k t} inner inv rounds := by
    obtain ⟨⟨own, collects⟩, sofar⟩ := inv
    have added := sofar.trans (rounds.adds collects inner)
    cases t with
    | ended stop k' => exact added
    | onward j k' => exact ⟨collects.onward rounds.eq, added⟩

/-- What a run sets about does not pause, or stands where the run starts, or right after a Fork. -/
theorem Reaches.start_or_forked {place : Int} (reaches : Reaches start m place path op k)
    (pauses : op.pauses = true) :
    place = start ∨ ∃ fork, m.opAt? (place - 1) = some fork ∧ fork.does .fork := by
  induction reaches with
  | here collects ready =>
    -- An execution itself passes a pause at the place where it starts, and at no other.
    left
    by_contra other
    exact ready.goes ⟨pauses, other⟩
  | @within start i place m k child k' own path op collects opens inner ih =>
    right
    obtain ⟨n, passes⟩ := collects.passes
    have akin : OpsAkin m.ops k.ops := (places.passes trivial passes).ops
    -- The Fork around the tranche, for its first operation; for a later one, a Fork in the tranche.
    obtain ⟨fork, here, forks⟩ : ∃ fork, k.opAt? (i + 1 + place - 1) = some fork ∧ fork.does .fork := by
      by_cases first : place = 0
      · cases opens with
        | @intro fork v d s _ ready primitive get cut opens =>
          have before : i + 1 + place - 1 = i := by omega
          rw [before]
          exact ⟨fork, ready.here, Operation.does_iff.mpr ⟨primitive, ready.enabled⟩⟩
      · obtain ⟨fork, there, forks⟩ := (ih pauses).resolve_left first
        have front : 0 ≤ place := inner.opAt.1 (Int.le_refl 0)
        have before : i + 1 + place - 1 = i + 1 + (place - 1) := by omega
        rw [before]
        exact ⟨fork, opens.opAt (by omega) there, forks⟩
    obtain ⟨fork₀, first, same⟩ := opAt_back akin here
    rw [same.does] at forks
    exact ⟨fork₀, first, forks⟩

/-- Which pausing operations a run dispatches. Such an operation stands at the place where the run starts,
or right after an enabled Fork, where a tranche starts; all others hold the run, at any nesting. -/
theorem pauses_held (ops : List Operation) (dish : Dish) (limit : Option Int) (start i : Int)
    (op : Operation) (dispatched : (i, op) ∈ ((fresh ops dish limit).run start).2.ledger.dispatches)
    (pauses : op.pauses = true) :
    let m := fresh ops dish limit
    ∃ place path k, Reaches start m place path op k ∧
      (∃ op₀, m.opAt? place = some op₀ ∧ op₀.Akin op) ∧
      (place = start ∨ ∃ fork, m.opAt? (place - 1) = some fork ∧ fork.does .fork) := by
  intro m
  have added : Ledger.Adds (Comes start m) m.ledger (m.run start).2.ledger := arrivals.run trivial
  rcases added i op dispatched with earlier | ⟨place, path, k, reaches⟩
  · -- The ledger of a new run is empty.
    cases earlier
  · exact ⟨place, path, k, reaches, reaches.opAt.2, reaches.start_or_forked pauses⟩

def ambush : List Operation :=
  [⟨"Fork", [.text ",", .text ";", .bool false], "string", "string", false, false, none⟩,
    ⟨"To Upper case", [], "string", "string", false, true, some .toUpperCase⟩]

def ambushed : Ledger :=
  ((fresh ambush ⟨.text "a,b", "string"⟩ none).run 0).2.ledger

theorem pauses_held_ambush : ∃ i op, (i, op) ∈ ambushed.dispatches ∧ op.pauses = true ∧
    ∃ place path k, Reaches 0 (fresh ambush ⟨.text "a,b", "string"⟩ none) place path op k ∧
      (place = 0 ∨ ∃ fork, (fresh ambush ⟨.text "a,b", "string"⟩ none).opAt? (place - 1) =
        some fork ∧ fork.does .fork) := by
  have pausing : true ∈ ambushed.dispatches.map (·.2.pauses) := by decide +kernel
  obtain ⟨⟨i, op⟩, dispatched, pauses⟩ := List.mem_map.mp pausing
  obtain ⟨place, path, k, reaches, -, held⟩ :=
    pauses_held ambush ⟨.text "a,b", "string"⟩ none 0 i op dispatched pauses
  exact ⟨i, op, dispatched, pauses, place, path, k, reaches, held⟩

/-- Its pause holds neither the run, which starts at the Fork, nor a tranche. -/
theorem pause_passed : (∀ op, ambush[0]? = some op → op.pauses = false) ∧
    ∃ i op, (i, op) ∈ ambushed.dispatches ∧ op.pauses = true ∧ op.disabled = false := by
  have passed : (true, false) ∈ ambushed.dispatches.map fun d => (d.2.pauses, d.2.disabled) := by
    decide +kernel
  obtain ⟨⟨i, op⟩, dispatched, flags⟩ := List.mem_map.mp passed
  obtain ⟨pauses, enabled⟩ := Prod.mk.inj flags
  refine ⟨?_, i, op, dispatched, pauses, enabled⟩
  intro op first
  cases first
  rfl

end Machine

end Kitchen.Run

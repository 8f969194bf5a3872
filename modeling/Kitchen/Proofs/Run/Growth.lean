import Kitchen.Proofs.Run.Contract

namespace Kitchen.Run

namespace Ledger

variable {l l' l'' : Ledger}

-- The operations that were dispatched, each with its place in its own list.
def dispatches (l : Ledger) : List (Int × Operation) :=
  l.events.toList.filterMap fun
    | .dispatched i op => some (i, op)
    | _ => none

def Tallied (l : Ledger) : Prop :=
  l.limit = none ∧ l.dispatches.length = l.steps

-- The captured texts are those of the publications, in order.
def Agrees (l : Ledger) : Prop :=
  l.registers = l.publications.flatMap (·.texts)

structure Grows (l l' : Ledger) : Prop where
  limit : l'.limit = l.limit
  steps : l.steps ≤ l'.steps
  registers : l.registers <+: l'.registers
  events : l.events.toList <+: l'.events.toList
  tallied : l.Tallied → l'.Tallied
  agrees : l.Agrees → l'.Agrees

theorem Grows.refl (l : Ledger) : l.Grows l :=
  ⟨rfl, Nat.le_refl _, List.prefix_refl _, List.prefix_refl _, id, id⟩

theorem Grows.trans (h : l.Grows l') (h' : l'.Grows l'') : l.Grows l'' where
  limit := h'.limit.trans h.limit
  steps := Nat.le_trans h.steps h'.steps
  registers := h.registers.trans h'.registers
  events := h.events.trans h'.events
  tallied tallied := h'.tallied (h.tallied tallied)
  agrees agrees := h'.agrees (h.agrees agrees)

theorem note_dispatches (l : Ledger) (e : Event) (other : ∀ i op, e ≠ .dispatched i op) :
    (l.note e).dispatches = l.dispatches := by
  simp only [dispatches, note, Array.toList_push, List.filterMap_append, List.filterMap_cons,
    List.filterMap_nil]
  cases e with
  | dispatched i op => exact absurd rfl (other i op)
  | _ => exact List.append_nil _

theorem dispatched_dispatches (l : Ledger) (i : Int) (op : Operation) :
    (l.count.note (.dispatched i op)).dispatches = l.dispatches ++ [(i, op)] := by
  simp only [dispatches, note, count, Array.toList_push, List.filterMap_append,
    List.filterMap_cons, List.filterMap_nil]

theorem note_publications (l : Ledger) (e : Event) (other : ∀ p, e ≠ .published p) :
    (l.note e).publications = l.publications := by
  simp only [publications, note, Array.toList_push, List.filterMap_append, List.filterMap_cons,
    List.filterMap_nil]
  cases e with
  | published p => exact absurd rfl (other p)
  | _ => exact List.append_nil _

theorem publish_publications (l : Ledger) (p : Publication) :
    (l.publish p).publications = l.publications ++ [p] := by
  simp only [publications, publish, note, Array.toList_push, List.filterMap_append,
    List.filterMap_cons, List.filterMap_nil]

theorem grows_note (l : Ledger) (e : Event)
    (other : ∀ i op, e ≠ .dispatched i op := by exact fun _ _ => Event.noConfusion)
    (unpublished : ∀ p, e ≠ .published p := by exact fun _ => Event.noConfusion) :
    l.Grows (l.note e) where
  limit := rfl
  steps := Nat.le_refl _
  registers := List.prefix_refl _
  events := by
    rw [note, Array.toList_push]
    exact List.prefix_append _ _
  tallied tallied := by
    refine ⟨tallied.1, ?_⟩
    rw [note_dispatches l e other]
    exact tallied.2
  agrees agrees := by
    unfold Agrees
    rw [note_publications l e unpublished]
    exact agrees

theorem grows_dispatched (l : Ledger) (i : Int) (op : Operation) :
    l.Grows (l.count.note (.dispatched i op)) where
  limit := rfl
  steps := Nat.le_succ _
  registers := List.prefix_refl _
  events := by
    rw [note, Array.toList_push]
    exact List.prefix_append _ _
  tallied tallied := by
    refine ⟨tallied.1, ?_⟩
    rw [dispatched_dispatches, List.length_append, tallied.2]
    rfl
  agrees agrees := by
    unfold Agrees
    rw [note_publications l.count (.dispatched i op) fun _ => Event.noConfusion]
    exact agrees

theorem grows_publish (l : Ledger) (p : Publication) : l.Grows (l.publish p) where
  limit := rfl
  steps := Nat.le_refl _
  registers := List.prefix_append _ _
  events := by
    change l.events.toList <+: (l.events.push (.published p)).toList
    rw [Array.toList_push]
    exact List.prefix_append _ _
  tallied tallied := by
    refine ⟨tallied.1, ?_⟩
    change (l.note (.published p)).dispatches.length = l.steps
    rw [note_dispatches l _ fun _ _ => Event.noConfusion]
    exact tallied.2
  agrees agrees := by
    have published : (l.publish p).registers = l.registers ++ p.texts := rfl
    unfold Agrees
    rw [published, publish_publications, List.flatMap_append, agrees]
    simp only [List.flatMap_cons, List.flatMap_nil, List.append_nil]

-- A relation between a ledger and a later one that composes, whatever tranches were numbered and whatever
-- failures passed over in between.
structure Spans (R : Ledger → Ledger → Prop) : Prop where
  refl : ∀ l, R l l
  trans : ∀ {l l' l''}, R l l' → R l' l'' → R l l''
  tranche : ∀ l number total, R l (l.note (.tranche number total))
  ignored : ∀ l number b, R l (l.note (.ignored number b))

end Ledger

def Turn.machine : Turn → Machine
  | .ended _ m => m
  | .onward _ m => m

namespace Machine

variable {run : Machine → Stop × Machine} {start i : Int} {op : Operation} {m k : Machine}

theorem conclude_ledger (m : Machine) (i : Int) (op : Operation) (halt : Halt) :
    (m.conclude i op halt).machine.ledger = m.ledger := by
  obtain ⟨stop, d, ended⟩ := conclude_ended m i op halt
  rw [ended]
  rfl

abbrev Growing (run : Machine → Stop × Machine) : Prop :=
  Upholds (fun _ _ => True) (fun _ m _ k => m.ledger.Grows k.ledger) run

theorem enact_grows (m : Machine) (deed : Deed) : m.ledger.Grows (m.enact deed).ledger := by
  cases deed with
  | stay => exact Ledger.grows_note _ _
  | leap label place => exact Ledger.grows_note _ _
  | capture texts => exact Ledger.grows_publish _ _
  | _ => exact .refl _

theorem Acts.grows {r : Except Failure Int} (acts : m.Acts i op r k) : m.ledger.Grows k.ledger := by
  cases acts with
  | @enacted p v d d' deed => exact enact_grows { m.moveTo i with dish := d' } deed
  | _ => exact .refl _

/-- An operation other than a Fork that fails adds nothing. -/
theorem Acts.failed_ledger {f : Failure} (acts : m.Acts i op (.error f) k) : k.ledger = m.ledger := by
  generalize hr : Except.error f = r at acts
  cases acts with
  | produced ordinary get made => cases hr
  | enacted primitive other get decided => cases hr
  | _ => rfl

namespace Split

variable {s : Split} {h h' : Harvest} {halt : Option Halt} {number : Nat} {v : Value}

theorem remark_grows (number : Nat) (stop : Stop) (ledger : Ledger) :
    ledger.Grows (remark number stop ledger) := by
  cases stop with
  | broken b => exact Ledger.grows_note _ _
  | _ => exact .refl _

theorem Serve.grows (growing : Growing run) (serve : s.Serve run number v h halt h') :
    h.ledger.Grows h'.ledger := by
  have noted : h.ledger.Grows (h.ledger.note (.tranche number s.parts.length)) :=
    Ledger.grows_note _ _
  -- A tranche adds its number, what its run adds, and a remark if its failure is passed over.
  have ran : ∀ {dish stop m}, run (s.next number dish h) = (stop, m) → h.ledger.Grows m.ledger := by
    intro dish stop m ran
    have grown := growing (s.next number dish h) trivial
    rw [ran] at grown
    exact noted.trans grown
  cases serve with
  | unmade made => exact noted
  | stopped made eq reach => exact ran eq
  | unread made eq reach get => exact (ran eq).trans (remark_grows _ _ _)
  | brought made eq reach get => exact (ran eq).trans (remark_grows _ _ _)

theorem serveAll_grows (growing : Growing run) (number : Nat) (vs : List Value)
    (served : s.serveAll run number vs h = (halt, h')) : h.ledger.Grows h'.ledger := by
  have begun : h.ledger.Grows h.ledger := .refl _
  apply serveAll_keeps (fun h' => h.ledger.Grows h'.ledger) _ number vs begun served
  intro number v h₁ halt h₂ grown serve
  exact grown.trans (serve.grows growing)

/-- The ledger of a tranche has grown from that of the Fork. -/
theorem Opens.grows {ledger : Ledger} {child : Machine} (growing : Growing run)
    (opens : s.Opens run ledger child) : ledger.Grows child.ledger := by
  cases opens with
  | intro parts served made =>
    have earlier := serveAll_grows growing 1 _ served
    exact earlier.trans (Ledger.grows_note _ _)

end Split

namespace Split

variable {s : Split} {ledger : Ledger} {halt : Option Halt} {h : Harvest} {R : Ledger → Ledger → Prop}

/-- What a relation says of each tranche, it says of all that a Fork serves. -/
theorem serveAll_spans (spans : Ledger.Spans R)
    (tranches : ∀ child, s.Opens run ledger child → R child.ledger (run child).2.ledger)
    (served : s.serveAll run 1 s.parts (s.opening ledger) = (halt, h)) : R ledger h.ledger := by
  have remarked : ∀ number stop l, R l (remark number stop l) := by
    intro number stop l
    cases stop with
    | broken b => exact spans.ignored l number b
    | _ => exact spans.refl l
  have kept := serveAll_rule (fun h => R ledger h.ledger) (fun _ h => R ledger h.ledger)
    (spans.refl _) ?_ served
  · cases halt <;> exact kept
  · intro number v h halt h' opens inv serve
    have noted : R ledger (h.ledger.note (.tranche number s.parts.length)) :=
      spans.trans inv (spans.tranche _ _ _)
    -- From the opening to the tranche, and from there to where its run ends.
    have ran : ∀ {dish stop m}, Dish.make v s.op.input = .ok dish →
        run (s.next number dish h) = (stop, m) → R ledger m.ledger := by
      intro dish stop m made ran
      have inner := tranches _ (opens dish made)
      rw [ran] at inner
      exact spans.trans noted inner
    cases serve with
    | unmade made => exact noted
    | stopped made eq reach => exact ran made eq
    | unread made eq reach get => exact spans.trans (ran made eq) (remarked _ _ _)
    | brought made eq reach get => exact spans.trans (ran made eq) (remarked _ _ _)

end Split

/-- What a relation says of each tranche, it says of the Fork. -/
theorem Serves.spans {r : Except Halt Int} {R : Ledger → Ledger → Prop} (serves : m.Serves run i op r k)
    (spans : Ledger.Spans R)
    (tranches : ∀ v d s child, m.dish.get op.input = .ok (v, d) →
      (m.forking i d).split op = (.ok s, d) → s.Opens run m.ledger child →
      R child.ledger (run child).2.ledger) : R m.ledger k.ledger := by
  cases serves with
  | unsplit get cut => exact spans.refl _
  | halted get cut served =>
    exact Split.serveAll_spans spans (fun child opens => tranches _ _ _ child get cut opens) served
  | unset get cut served set =>
    exact Split.serveAll_spans spans (fun child opens => tranches _ _ _ child get cut opens) served
  | joined get cut served set =>
    exact Split.serveAll_spans spans (fun child opens => tranches _ _ _ child get cut opens) served

theorem Serves.grows {r : Except Halt Int} (growing : Growing run) (serves : m.Serves run i op r k) :
    m.ledger.Grows k.ledger := by
  cases serves with
  | unsplit get cut => exact .refl _
  | halted get cut served => exact Split.serveAll_grows growing 1 _ served
  | unset get cut served set => exact Split.serveAll_grows growing 1 _ served
  | joined get cut served set => exact Split.serveAll_grows growing 1 _ served

theorem exceeded_limit {l : Ledger} {n : Int} (excess : l.exceeded? = some n) : l.limit = some n :=
  (Option.filter_eq_some_iff.mp excess).1

theorem exceeded_unlimited {l : Ledger} (unlimited : l.limit = none) : l.exceeded? = none := by
  unfold Ledger.exceeded?
  rw [unlimited]
  rfl

/-- One step more than the limit allows is counted, but no operation dispatched for it. -/
theorem grows_exceeded {l : Ledger} {n : Int} (excess : l.count.exceeded? = some n) :
    l.Grows l.count := by
  refine ⟨rfl, Nat.le_succ _, List.prefix_refl _, List.prefix_refl _, ?_, id⟩
  intro tallied
  have limited : l.limit = some n := exceeded_limit (l := l.count) excess
  rw [tallied.1] at limited
  cases limited

theorem Rounds.grows {t : Turn} (growing : Growing run) (rounds : m.Rounds run start i t) :
    m.ledger.Grows t.machine.ledger := by
  have entered : ∀ op, m.ledger.Grows (m.enter i op).ledger :=
    fun op => Ledger.grows_dispatched _ i op
  cases rounds with
  | completed beyond => exact Ledger.grows_note _ _
  | outside within missing => exact .refl _
  | skipped here disabled => exact Ledger.grows_note _ _
  | paused here enabled pauses => exact Ledger.grows_note _ _
  | exceeded here enabled goes excess => exact grows_exceeded excess
  | @failed op f k' ready acts =>
    rw [conclude_ledger]
    exact (entered op).trans acts.grows
  | @acted op j k' ready acts => exact (entered op).trans acts.grows
  | @halted op halt k' ready fork serves =>
    have served : m.ledger.Grows k'.ledger := (entered op).trans (serves.grows growing)
    rw [conclude_ledger]
    exact served
  | @served op j k' ready fork serves =>
    have served : m.ledger.Grows k'.ledger := (entered op).trans (serves.grows growing)
    exact served

/-- Executions only add to the ledger. -/
theorem growth : Contract (fun _ _ => True) (fun _ m _ k => m.ledger.Grows k.ledger)
    (fun _ m _ k => m.ledger.Grows k.ledger) where
  unbegun _ := .refl _
  begins _ := Ledger.grows_note _ _
  unended inv := inv
  opens _ _ _ := trivial
  round {run start m i k t} growing inv rounds := by
    have grown := inv.trans (rounds.grows growing)
    cases t with
    | ended stop k' => exact grown
    | onward j k' => exact grown

/-- The ledger of a tranche has grown from that of its execution. -/
theorem Opens.grows {child : Machine} (growing : Growing run) (opens : m.Opens run start i child) :
    m.ledger.Grows child.ledger := by
  cases opens with
  | @intro op v d s _ ready fork get cut opens =>
    exact (Ledger.grows_dispatched m.ledger i op).trans (Split.Opens.grows growing opens)

theorem Arises.grows {start' : Int} {m' : Machine} (arises : Arises start m start' m') :
    m.ledger.Grows m'.ledger := by
  induction arises with
  | outermost => exact .refl _
  | tranche outer passes opens ih =>
    exact (ih.trans (growth.passes trivial passes)).trans (opens.grows growth.upholds_run)

/-- An execution that ends over a limit ends over the one that its ledger has. -/
theorem limited : Contract (fun _ _ => True) (fun _ m _ k => m.ledger.Grows k.ledger)
    (fun _ m stop k => m.ledger.Grows k.ledger ∧
      ∀ l, stop = .overLimit l → m.ledger.limit = some l) where
  unbegun _ := ⟨.refl _, fun _ => Stop.noConfusion⟩
  begins _ := Ledger.grows_note _ _
  unended inv := ⟨inv, fun _ => Stop.noConfusion⟩
  opens _ _ _ := trivial
  round {run start m i k t} keeps inv rounds := by
    have growing : Growing run := fun n _ => (keeps n trivial).1
    have grown := inv.trans (rounds.grows growing)
    cases t with
    | onward j k' => exact grown
    | ended stop k' =>
      refine ⟨grown, ?_⟩
      rintro l rfl
      generalize hs : Stop.overLimit l = stop at rounds
      -- The execution counted one step too many itself, or one of its tranches did.
      cases rounds.ending with
      | exceeded excess =>
        cases hs
        have same : k.ledger.limit = some l := exceeded_limit (l := k.ledger.count) excess
        exact inv.limit.symm.trans same
      | @fatal child halt opens fatal =>
        have same := (keeps child trivial).2 l hs.symm
        have grown' := inv.trans (opens.grows growing)
        exact grown'.limit.symm.trans same
      | _ => cases hs

end Machine

end Kitchen.Run

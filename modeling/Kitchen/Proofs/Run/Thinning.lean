import Kitchen.Proofs.Run.Depth
import Kitchen.Proofs.Run.Growth
import Kitchen.Proofs.Run.Rank

namespace Kitchen.Run

-- No enabled operation pauses.
def Unpaused (ops : List Operation) : Prop :=
  ∀ op ∈ ops, op.disabled = false → op.pauses = false

instance (ops : List Operation) : Decidable (Unpaused ops) :=
  inferInstanceAs (Decidable (∀ op ∈ ops, op.disabled = false → op.pauses = false))

theorem Unpaused.akin {ops ops' : List Operation} (unpaused : Unpaused ops)
    (akin : Machine.OpsAkin ops ops') : Unpaused ops' := by
  intro op mem enabled
  obtain ⟨op₀, mem₀, same⟩ := akin.back mem
  rw [same.disabled] at enabled
  rw [same.pauses]
  exact unpaused op₀ mem₀ enabled

theorem Unpaused.subset {ops ops' : List Operation} (unpaused : Unpaused ops) (h : ops' ⊆ ops) :
    Unpaused ops' :=
  fun op mem => unpaused op (h mem)

def Deed.relabel (f : Nat → Nat) : Deed → Deed
  | .leap label place => .leap label (f place)
  | deed => deed

def Publication.relocate (f : Int → Int) (p : Publication) : Publication :=
  { p with place := f p.place }

-- How the two runs end: with the same failure, if any, and at places that correspond.
inductive Stop.Renumbered (ops : List Operation) : Stop → Stop → Prop where
  | «at» (p : Int) : Renumbered ops (.at p) (.at (rank ops p.toNat))
  | broken (b : Breakdown) :
      Renumbered ops (.broken b) (.broken { b with place := rank ops b.place.toNat })

-- Why the two Forks halt. The places that tranches report are replaced by those of their Forks.
inductive Halt.Alike : Halt → Halt → Prop where
  | failed (f : Failure) : Alike (.failed f) (.failed f)
  | broken {b b' : Breakdown} (operation : b'.operation = b.operation) (cause : b'.cause = b.cause) :
      Alike (.broken b) (.broken b')

structure Ledger.Thinned (f : Int → Int) (l l' : Ledger) : Prop where
  limit : l.limit = none
  limit' : l'.limit = none
  registers : l'.registers = l.registers
  steps : l'.steps = l.steps
  publications : l'.publications = l.publications.map (.relocate f)

-- The two machines. A place in the list has a place in the outermost recipe, from the offset on.
structure Machine.Thinned (f : Int → Int) (m m' : Machine) : Prop where
  ops : m'.ops = kept m.ops
  dish : m'.dish = m.dish
  jumps : m'.frame.jumps = m.frame.jumps
  addressable : m'.frame.addressable = m.frame.addressable
  offset : ∀ n ≤ m.ops.length, f (m.frame.offset + n) = m'.frame.offset + rank m.ops n
  ledger : m.ledger.Thinned f m'.ledger
  last : m'.last = m.last.map (rank m.ops)
  completed : ∀ n, m.last = some n → ∃ op, m.ops[n]? = some op ∧ op.disabled = false

-- Places before a round. At the end of the list or beyond, the other machine is so too.
structure Level (ops : List Operation) (i i' : Int) : Prop where
  within : i < ops.length → i' = rank ops i.toNat
  beyond : ops.length ≤ i → (kept ops).length ≤ i'

theorem Level.of_rank {ops : List Operation} {i i' : Int} (front : 0 ≤ i) (inside : i ≤ ops.length)
    (moved : i' = rank ops i.toNat) : Level ops i i' where
  within _ := moved
  beyond ended := by
    have all : rank ops i.toNat = (kept ops).length := rank_all (by omega)
    omega

inductive Turn.Thinned (f : Int → Int) : Turn → Turn → Prop where
  | ended {stop stop' : Stop} {m m' : Machine} (stops : stop.Renumbered m.ops stop')
      (machines : m.Thinned f m') : Thinned f (.ended stop m) (.ended stop' m')
  | onward {i i' : Int} {m m' : Machine} (level : Level m.ops i i') (machines : m.Thinned f m') :
      Thinned f (.onward i m) (.onward i' m')

/-- The places at which runs stop may be counted before or after references were filled. -/
theorem Stop.Renumbered.akin {ops ops' : List Operation} {stop stop' : Stop}
    (stops : stop.Renumbered ops' stop') (akin : Machine.OpsAkin ops ops') :
    stop.Renumbered ops stop' := by
  cases stops with
  | «at» p =>
    rw [Machine.rank_akin akin]
    exact .at p
  | broken b =>
    rw [Machine.rank_akin akin]
    exact .broken b

theorem Turn.Thinned.finished {f : Int → Int} {stop stop' : Stop} {m m' : Machine}
    (both : Turn.Thinned f (.ended stop m) (.ended stop' m')) : stop' ≠ .unfinished := by
  rintro rfl
  cases both with
  | ended stops machines => cases stops

theorem Turn.Thinned.ends {f : Int → Int} {stop stop' : Stop} {m m' : Machine}
    (both : Turn.Thinned f (.ended stop m) (.ended stop' m')) :
    stop.Renumbered m.ops stop' ∧ m.Thinned f m' := by
  cases both with
  | ended stops machines => exact ⟨stops, machines⟩

namespace Ledger

variable {f : Int → Int} {l l' : Ledger}

/-- Of what is noted only publications matter. -/
theorem Thinned.note (h : l.Thinned f l') {e e' : Event}
    (other : ∀ p, e ≠ .published p := by exact fun _ => Event.noConfusion)
    (other' : ∀ p, e' ≠ .published p := by exact fun _ => Event.noConfusion) :
    (l.note e).Thinned f (l'.note e') where
  limit := h.limit
  limit' := h.limit'
  registers := h.registers
  steps := h.steps
  publications := by
    rw [note_publications l e other, note_publications l' e' other']
    exact h.publications

theorem Thinned.note_left (h : l.Thinned f l') {e : Event}
    (other : ∀ p, e ≠ .published p := by exact fun _ => Event.noConfusion) :
    (l.note e).Thinned f l' where
  limit := h.limit
  limit' := h.limit'
  registers := h.registers
  steps := h.steps
  publications := by
    rw [note_publications l e other]
    exact h.publications

theorem Thinned.count (h : l.Thinned f l') : l.count.Thinned f l'.count where
  limit := h.limit
  limit' := h.limit'
  registers := h.registers
  steps := congrArg (· + 1) h.steps
  publications := h.publications

theorem Thinned.publish (h : l.Thinned f l') {p p' : Publication} (moved : p' = p.relocate f) :
    (l.publish p).Thinned f (l'.publish p') where
  limit := h.limit
  limit' := h.limit'
  registers := by
    change l'.registers ++ p'.texts = l.registers ++ p.texts
    rw [h.registers, moved]
    rfl
  steps := h.steps
  publications := by
    rw [publish_publications, publish_publications, List.map_append, h.publications, moved]
    rfl

end Ledger

namespace Deed

variable {f : Nat → Nat}

def relabelled (f : Nat → Nat) (r : Decision) : Decision :=
  (r.1.map (relabel f), r.2)

theorem byText_relabelled {d : Dish} {g g' : Value → Except Failure Deed}
    (same : ∀ v, g' v = (g v).map (relabel f)) :
    byText d g' = relabelled f (byText d g) := by
  unfold byText relabelled
  split
  · rfl
  · rw [same]

/-- Where labels are moved, the same jumps lead to the places where they are. -/
theorem ofPrimitive_relabelled (o : Outlook) (op : Operation) (d : Dish) (p : Primitive) :
    ofPrimitive ⟨fun label => (o.find label).map f, o.jumps⟩ op d p =
      relabelled f (ofPrimitive o op d p) := by
  -- Whether a label has a place is the same in both; only the place itself is relabelled.
  have aimed : ∀ label budget (g g' : Nat → Decision),
      (∀ place, g' (f place) = relabelled f (g place)) →
      aim ⟨fun label => (o.find label).map f, o.jumps⟩ label budget d g' =
        relabelled f (aim o label budget d g) := by
    intro label budget g g' same
    unfold aim
    dsimp only
    cases spent o.jumps budget with
    | error u => rfl
    | ok used =>
      cases used with
      | true => rfl
      | false =>
        cases o.find label with
        | none => rfl
        | some place => exact same place
  cases p with
  | register =>
    simp only [ofPrimitive, register]
    split
    · split
      · rfl
      · apply byText_relabelled
        intro v
        simp only [bind, Except.bind, pure, Except.pure]
        split
        · rfl
        · split <;> rfl
    · rfl
  | jump =>
    simp only [ofPrimitive, jump]
    split
    · exact aimed _ _ _ _ fun _ => rfl
    · rfl
  | conditionalJump =>
    simp only [ofPrimitive, conditionalJump]
    split
    · apply aimed
      intro place
      split
      · rfl
      · apply byText_relabelled
        intro v
        simp only [bind, Except.bind, pure, Except.pure]
        split
        · rfl
        · split
          · rfl
          · split <;> rfl
    · rfl
  | _ => rfl

end Deed

namespace Machine

variable {f : Int → Int} {i : Int} {n : Nat} {op : Operation} {m m' k : Machine}

theorem Level.next {ops : List Operation} (here : ops[n]? = some op) (enabled : op.disabled = false) :
    Level ops ((n : Int) + 1) ((rank ops n : Int) + 1) := by
  have inside := (List.getElem?_eq_some_iff.mp here).1
  refine Level.of_rank (by omega) (by omega) ?_
  have place : ((n : Int) + 1).toNat = n + 1 := by omega
  rw [place, rank_enabled here enabled]
  rfl

theorem labelPosition_enabled {label : Value} {ops : List Operation}
    (found : labelPosition? label ops = some n) :
    ∃ op, ops[n]? = some op ∧ op.disabled = false := by
  obtain ⟨inside, named, -⟩ := List.findIdx?_eq_some_iff_getElem.mp found
  refine ⟨ops[n], List.getElem?_eq_getElem inside, ?_⟩
  simp only [Operation.does, Bool.and_eq_true, Bool.not_eq_true'] at named
  exact named.1.2

theorem Thinned.outlook (thinned : m.Thinned f m') :
    m'.outlook = ⟨fun label => (m.outlook.find label).map (rank m.ops), m.outlook.jumps⟩ := by
  unfold Machine.outlook
  rw [thinned.ops, thinned.jumps]
  congr 1
  funext label
  exact labelPosition_kept label m.ops

theorem resolveArgs_disabled (c : Reference.Capture) (op : Operation) :
    (resolveArgs c op).disabled = op.disabled :=
  (resolveArgs_akin c op).disabled

/-- References are filled in the same operations of both lists. -/
theorem Thinned.capture (thinned : m.Thinned f m') (texts : List (List Text.Glyph))
    (here : m.ops[n]? = some op) (enabled : op.disabled = false) (cursor : m.frame.cursor = n)
    (cursor' : m'.frame.cursor = rank m.ops n) : (m.capture texts).Thinned f (m'.capture texts) := by
  have akin := m.capture_akin texts
  have inside := (List.getElem?_eq_some_iff.mp here).1
  have further : rank m.ops (n + 1) = rank m.ops n + 1 := rank_enabled here enabled
  constructor
  case ops =>
    -- The cursor's own operation is enabled, so the lists are cut at the same one.
    change m'.ops.take (follows m'.ops.length m'.frame.cursor) ++
        (m'.ops.drop (follows m'.ops.length m'.frame.cursor)).map
          (resolveArgs ⟨m'.frame.addressable, texts⟩) =
      kept (m.ops.take (follows m.ops.length m.frame.cursor) ++
        (m.ops.drop (follows m.ops.length m.frame.cursor)).map
          (resolveArgs ⟨m.frame.addressable, texts⟩))
    rw [cursor, cursor', follows_nat, follows_nat, thinned.ops, thinned.addressable, kept_append,
      kept_map _ (resolveArgs_disabled _), kept_take, kept_drop, further]
  case dish => exact thinned.dish
  case jumps => exact thinned.jumps
  case addressable =>
    change m'.frame.addressable + texts.length = m.frame.addressable + texts.length
    rw [thinned.addressable]
  case offset =>
    intro p within
    rw [rank_akin akin]
    exact thinned.offset p (by rwa [akin.length_eq])
  case ledger =>
    apply thinned.ledger.publish
    change Publication.mk (m'.frame.offset + m'.frame.cursor) m'.frame.addressable _ =
      ⟨f (m.frame.offset + m.frame.cursor), m.frame.addressable, _⟩
    rw [cursor, cursor', thinned.addressable, thinned.offset n (Nat.le_of_lt inside)]
  case last =>
    change m'.last = m.last.map (rank (m.capture texts).ops)
    rw [thinned.last]
    congr 1
    funext p
    exact (rank_akin akin p).symm
  case completed =>
    intro p last
    obtain ⟨op₀, there, enabled₀⟩ := thinned.completed p last
    exact enabled_akin akin there enabled₀

/-- The deeds of both lead to places that correspond. -/
theorem Thinned.enact {deed : Deed} (thinned : m.Thinned f m') (here : m.ops[n]? = some op)
    (enabled : op.disabled = false) (cursor : m.frame.cursor = n)
    (cursor' : m'.frame.cursor = rank m.ops n)
    (lands : ∀ label place, deed = .leap label place →
      ∃ op, m.ops[place]? = some op ∧ op.disabled = false) :
    (m.enact deed).Thinned f (m'.enact (deed.relabel (rank m.ops))) ∧
      Level (m.enact deed).ops ((m.enact deed).frame.cursor + 1)
        ((m'.enact (deed.relabel (rank m.ops))).frame.cursor + 1) := by
  have next : Level m.ops (m.frame.cursor + 1) (m'.frame.cursor + 1) := by
    rw [cursor, cursor']
    exact Level.next here enabled
  -- The place that a deed leads to is the one after the cursor, unless it jumps or ends the run.
  cases deed with
  | pass => exact ⟨thinned, next⟩
  | stay =>
    refine ⟨{ thinned with ledger := ?_ }, next⟩
    exact thinned.ledger.note
  | leap label place =>
    obtain ⟨op₁, there, enabled₁⟩ := lands label place rfl
    refine ⟨{ thinned with jumps := ?_, ledger := ?_ }, Level.next there enabled₁⟩
    · exact congrArg (· + 1) thinned.jumps
    · exact thinned.ledger.note
  | capture texts =>
    refine ⟨thinned.capture texts here enabled cursor cursor', ?_⟩
    have akin := m.capture_akin texts
    change Level (m.capture texts).ops (m.frame.cursor + 1) (m'.frame.cursor + 1)
    rw [cursor, cursor']
    obtain ⟨op₁, there, enabled₁⟩ := enabled_akin akin here enabled
    have moved := Level.next there enabled₁
    rwa [rank_akin akin] at moved
  | finish =>
    refine ⟨{ thinned with }, ?_⟩
    change Level m.ops (m.ops.length + 1) (m'.ops.length + 1)
    rw [thinned.ops]
    exact ⟨fun within => by omega, fun _ => by omega⟩

/-- An operation other than a Fork fails in both for the same reason. -/
theorem Acts.fails_thinned {e : Failure} (acts : m.Acts i op (.error e) k)
    (thinned : m.Thinned f m') (i' : Int) :
    ∃ k', m'.Acts i' op (.error e) k' ∧ k.Thinned f k' := by
  generalize hr : Except.error e = r at acts
  cases acts with
  | unreadable get =>
    cases hr
    exact ⟨m', .unreadable (by rwa [thinned.dish]), thinned⟩
  | refused ordinary get made =>
    cases hr
    rw [← thinned.dish] at get
    exact ⟨_, .refused ordinary get made, { thinned with dish := rfl }⟩
  | @declined p v d d' e primitive other get decided =>
    cases hr
    have same : Deed.ofPrimitive m'.outlook op d p = (.error e, d') := by
      rw [thinned.outlook, Deed.ofPrimitive_relabelled, decided]
      rfl
    exact ⟨_, .declined primitive other (by rwa [thinned.dish]) same, { thinned with dish := rfl }⟩
  | _ => cases hr

/-- An operation other than a Fork that goes on does so in both. -/
theorem Acts.goes_thinned {j : Int} (acts : m.Acts n op (.ok j) k) (thinned : m.Thinned f m')
    (here : m.ops[n]? = some op) (enabled : op.disabled = false) :
    ∃ j' k', m'.Acts (rank m.ops n) op (.ok j') k' ∧ k.Thinned f k' ∧
      Level k.ops (j + 1) (j' + 1) := by
  generalize hr : Except.ok j = r at acts
  cases acts with
  | produced ordinary get made =>
    cases hr
    exact ⟨_, _, .produced ordinary (by rwa [thinned.dish]) made, { thinned with dish := rfl },
      Level.next here enabled⟩
  | @enacted p v d d' deed primitive other get decided =>
    cases hr
    have same : Deed.ofPrimitive m'.outlook op d p =
        (.ok (deed.relabel (rank m.ops)), d') := by
      rw [thinned.outlook, Deed.ofPrimitive_relabelled, decided]
      rfl
    -- Jumps lead to labels, which are enabled.
    have lands : ∀ label place, deed = .leap label place →
        ∃ op, m.ops[place]? = some op ∧ op.disabled = false := by
      rintro label place rfl
      obtain ⟨budget, -, -, found⟩ := Deed.ofPrimitive_leap primitive decided
      exact labelPosition_enabled found
    have moved : ({ m.moveTo n with dish := d' } : Machine).Thinned f
        { m'.moveTo (rank m.ops n) with dish := d' } := { thinned with dish := rfl }
    obtain ⟨enacted, level⟩ := moved.enact here enabled rfl rfl lands
    exact ⟨_, _, .enacted primitive other (by rwa [thinned.dish]) same, enacted, level⟩
  | _ => cases hr

end Machine

end Kitchen.Run

import Kitchen.Proofs.Run.Deeds
import Kitchen.Proofs.Run.Growth

namespace Kitchen.Run

def Publication.shift (δ : Int) (p : Publication) : Publication :=
  { p with place := p.place + δ }

namespace Ledger

variable {base l l' : Ledger} {δ : Int}

-- Two ledgers without a limit. To what another one holds, the second one has added what the first one holds,
-- with its places moved.
structure Echoes (base : Ledger) (δ : Int) (l l' : Ledger) : Prop where
  free : l.limit = none
  free' : l'.limit = none
  registers : l'.registers = base.registers ++ l.registers
  publications : l'.publications = base.publications ++ l.publications.map (·.shift δ)

/-- What is noted beside publications leaves them alone. -/
theorem Echoes.note (echoes : Echoes base δ l l') {e e' : Event} (other : ∀ p, e ≠ .published p)
    (other' : ∀ p, e' ≠ .published p) : Echoes base δ (l.note e) (l'.note e') := by
  refine ⟨echoes.free, echoes.free', echoes.registers, ?_⟩
  rw [note_publications l e other, note_publications l' e' other']
  exact echoes.publications

theorem Echoes.count (echoes : Echoes base δ l l') : Echoes base δ l.count l'.count :=
  ⟨echoes.free, echoes.free', echoes.registers, echoes.publications⟩

theorem Echoes.publish (echoes : Echoes base δ l l') (p : Publication) :
    Echoes base δ (l.publish p) (l'.publish (p.shift δ)) := by
  refine ⟨echoes.free, echoes.free', ?_, ?_⟩
  · change l'.registers ++ p.texts = base.registers ++ (l.registers ++ p.texts)
    rw [echoes.registers, List.append_assoc]
  · rw [publish_publications, publish_publications, echoes.publications, List.map_append,
      List.append_assoc]
    rfl

end Ledger

namespace Machine

variable {run : Machine → Stop × Machine} {start i δ : Int} {op : Operation}
  {m m' k : Machine} {base ledger : Ledger}

def elsewhere (m : Machine) (offset : Int) (ledger : Ledger) : Machine :=
  { m with frame := { m.frame with offset }, ledger }

-- Two machines that differ in where they are alone, by so many places, and are under no limit.
inductive Alike (base : Ledger) (δ : Int) (m : Machine) : Machine → Prop where
  | intro {ledger : Ledger} (echoes : Ledger.Echoes base δ m.ledger ledger) :
      Alike base δ m (m.elsewhere (m.frame.offset + δ) ledger)

def Oblivious (run : Machine → Stop × Machine) : Prop :=
  ∀ base δ m m', Alike base δ m m' → (run m').1 = (run m).1 ∧ Alike base δ (run m).2 (run m').2

theorem enact_elsewhere (m : Machine) (offset : Int) (ledger : Ledger) (deed : Deed) :
    (m.elsewhere offset ledger).enact deed =
      (m.enact deed).elsewhere offset ((m.elsewhere offset ledger).enact deed).ledger := by
  cases deed <;> rfl

theorem enact_offset (m : Machine) (deed : Deed) : (m.enact deed).frame.offset = m.frame.offset := by
  cases deed <;> rfl

/-- What a deed adds to the ledger it adds elsewhere, from another place. -/
theorem enact_echoes (deed : Deed) (echoes : Ledger.Echoes base δ m.ledger ledger) :
    Ledger.Echoes base δ (m.enact deed).ledger
      ((m.elsewhere (m.frame.offset + δ) ledger).enact deed).ledger := by
  cases deed with
  | stay => exact echoes.note (fun _ => Event.noConfusion) fun _ => Event.noConfusion
  | leap label place => exact echoes.note (fun _ => Event.noConfusion) fun _ => Event.noConfusion
  | capture texts =>
    have moved : (⟨m.frame.offset + δ + m.frame.cursor, m.frame.addressable, texts⟩ :
        Publication) = Publication.shift δ
          ⟨m.frame.offset + m.frame.cursor, m.frame.addressable, texts⟩ := by
      simp only [Publication.shift, Int.add_right_comm]
    have published := echoes.publish
      ⟨m.frame.offset + m.frame.cursor, m.frame.addressable, texts⟩
    rw [← moved] at published
    exact published
  | _ => exact echoes

theorem Acts.alike {r : Except Failure Int} (acts : m.Acts i op r k) (alike : Alike base δ m m') :
    ∃ k', m'.Acts i op r k' ∧ Alike base δ k k' := by
  obtain @⟨ledger, echoes⟩ := alike
  cases acts with
  | unreadable get => exact ⟨_, .unreadable get, .intro echoes⟩
  | @refused v d f ordinary get made =>
    have same : Alike base δ { m with dish := d }
        ({ m with dish := d }.elsewhere (m.frame.offset + δ) ledger) := .intro echoes
    exact ⟨_, .refused ordinary get made, same⟩
  | @produced v d d' ordinary get made =>
    have same : Alike base δ { m with dish := d' }
        ({ m with dish := d' }.elsewhere (m.frame.offset + δ) ledger) := .intro echoes
    exact ⟨_, .produced ordinary get made, same⟩
  | @declined p v d d' f primitive other get decided =>
    have same : Alike base δ { m.moveTo i with dish := d' }
        ({ m.moveTo i with dish := d' }.elsewhere (m.frame.offset + δ) ledger) := .intro echoes
    exact ⟨_, .declined primitive other get decided, same⟩
  | @enacted p v d d' deed primitive other get decided =>
    let here : Machine := { m.moveTo i with dish := d' }
    have enacted := enact_elsewhere here (m.frame.offset + δ) ledger deed
    have acted : (m.elsewhere (m.frame.offset + δ) ledger).Acts i op _ _ :=
      .enacted primitive other get decided
    -- What was enacted elsewhere is stated as what was enacted here, moved elsewhere.
    change (m.elsewhere (m.frame.offset + δ) ledger).Acts i op
      (.ok ((here.elsewhere (m.frame.offset + δ) ledger).enact deed).frame.cursor)
      ((here.elsewhere (m.frame.offset + δ) ledger).enact deed) at acted
    have echoed := enact_echoes (m := here) deed echoes
    have same := Alike.intro (m := here.enact deed) echoed
    have offset : (here.enact deed).frame.offset = m.frame.offset := enact_offset here deed
    rw [offset] at same
    rw [enacted] at acted
    exact ⟨_, acted, same⟩

namespace Split

variable {s : Split} {number : Nat} {v : Value} {h h₁ : Harvest} {halt : Option Halt}

def elsewhere (s : Split) (offset : Int) : Split :=
  { s with frame := { s.frame with offset } }

theorem remark_limit (number : Nat) (stop : Stop) (ledger : Ledger) :
    (remark number stop ledger).limit = ledger.limit := by
  cases stop <;> rfl

theorem remark_echoes (number : Nat) (stop : Stop) {l l' : Ledger} (echoes : Ledger.Echoes base δ l l') :
    Ledger.Echoes base δ (remark number stop l) (remark number stop l') := by
  cases stop with
  | broken b => exact echoes.note (fun _ => Event.noConfusion) fun _ => Event.noConfusion
  | _ => exact echoes

/-- A tranche brings the same wherever it runs. -/
theorem Serve.alike (oblivious : Oblivious run) (echoes : Ledger.Echoes base δ h.ledger ledger)
    (serve : s.Serve run number v h halt h₁) :
    ∃ ledger', (s.elsewhere (s.frame.offset + δ)).Serve run number v { h with ledger } halt
        { h₁ with ledger := ledger' } ∧ Ledger.Echoes base δ h₁.ledger ledger' := by
  have noted : Ledger.Echoes base δ (h.ledger.note (.tranche number s.parts.length))
      (ledger.note (.tranche number s.parts.length)) :=
    echoes.note (fun _ => Event.noConfusion) fun _ => Event.noConfusion
  -- The tranche is noted in each ledger, and runs at the offset of each Fork.
  have child : ∀ {dish stop m}, run (s.next number dish h) = (stop, m) →
      ∃ m', run ((s.elsewhere (s.frame.offset + δ)).next number dish { h with ledger }) = (stop, m') ∧
        Alike base δ m m' := by
    intro dish stop m ran
    have same : Alike base δ (s.next number dish h)
        ((s.elsewhere (s.frame.offset + δ)).next number dish { h with ledger }) :=
      .intro (m := s.next number dish h) noted
    have both := oblivious _ _ _ _ same
    rw [ran] at both
    obtain ⟨ended, alike⟩ := both
    generalize run ((s.elsewhere (s.frame.offset + δ)).next number dish { h with ledger }) = ran'
      at ended alike
    obtain ⟨stop', m'⟩ := ran'
    obtain rfl : stop' = stop := ended
    exact ⟨m', rfl, alike⟩
  cases serve with
  | unmade made => exact ⟨_, .unmade made, noted⟩
  | @stopped dish stop m halt made ran reach =>
    obtain ⟨m', ran', same⟩ := child ran
    obtain @⟨ledger', echoed⟩ := same
    have serve' : (s.elsewhere (s.frame.offset + δ)).Serve run number v { h with ledger } _ _ :=
      .stopped made ran' reach
    exact ⟨ledger', serve', echoed⟩
  | @unread dish stop m progress e made ran reach get =>
    obtain ⟨m', ran', same⟩ := child ran
    obtain @⟨ledger', echoed⟩ := same
    have serve' : (s.elsewhere (s.frame.offset + δ)).Serve run number v { h with ledger } _ _ :=
      .unread made ran' reach get
    exact ⟨remark number stop ledger', serve', remark_echoes number stop echoed⟩
  | @brought dish d stop m progress w made ran reach get =>
    obtain ⟨m', ran', same⟩ := child ran
    obtain @⟨ledger', echoed⟩ := same
    have serve' : (s.elsewhere (s.frame.offset + δ)).Serve run number v { h with ledger } _ _ :=
      .brought made ran' reach get
    exact ⟨remark number stop ledger', serve', remark_echoes number stop echoed⟩

theorem serveAll_alike (oblivious : Oblivious run) (number : Nat) (vs : List Value)
    (echoes : Ledger.Echoes base δ h.ledger ledger)
    (served : s.serveAll run number vs h = (halt, h₁)) :
    ∃ ledger', (s.elsewhere (s.frame.offset + δ)).serveAll run number vs { h with ledger } =
        (halt, { h₁ with ledger := ledger' }) ∧ Ledger.Echoes base δ h₁.ledger ledger' := by
  induction vs generalizing number h ledger with
  | nil =>
    obtain ⟨rfl, rfl⟩ : none = halt ∧ h = h₁ := by simpa [serveAll] using served
    exact ⟨ledger, rfl, echoes⟩
  | cons v vs ih =>
    obtain ⟨halt₂, h₂, serve⟩ := serve_serve run s number v h
    obtain ⟨ledger₂, serve', echoed⟩ := serve.alike oblivious echoes
    rw [serveAll, serve.eq] at served
    rw [serveAll, serve'.eq]
    cases halt₂ with
    | none => exact ih (number + 1) echoed served
    | some halt₂ =>
      obtain ⟨rfl, rfl⟩ : some halt₂ = halt ∧ h₂ = h₁ := by simpa using served
      exact ⟨ledger₂, rfl, echoed⟩

end Split

/-- A Fork elsewhere splits its input in the same way, for tranches that are elsewhere by as much. -/
theorem split_elsewhere {s : Split} {d : Dish} (cut : m.split op = (.ok s, d)) :
    (m.elsewhere (m.frame.offset + δ) ledger).split op = (.ok (s.elsewhere (s.frame.offset + δ)), d) := by
  have dishes : (m.elsewhere (m.frame.offset + δ) ledger).dish = m.dish := rfl
  have same := split_congr op dishes
  rw [cut] at same
  obtain ⟨separator, delimiter, ignoring, more, v, parts, -, -, -, rfl⟩ := split_ok cut
  have inner : (m.elsewhere (m.frame.offset + δ) ledger).frame.inner =
      { m.frame.inner with offset := m.frame.inner.offset + δ } := by
    have offset : m.frame.offset + δ + m.frame.cursor + 1 = m.frame.offset + m.frame.cursor + 1 + δ := by
      omega
    simp only [Frame.inner, elsewhere, offset]
  rw [inner] at same
  exact same

theorem Serves.alike {r : Except Halt Int} (oblivious : Oblivious run)
    (serves : m.Serves run i op r k) (alike : Alike base δ m m') :
    ∃ k', m'.Serves run i op r k' ∧ Alike base δ k k' := by
  obtain @⟨ledger, echoes⟩ := alike
  have tranches : ∀ {s : Split} {halt h},
      s.serveAll run 1 s.parts (s.opening m.ledger) = (halt, h) →
      ∃ ledger', (s.elsewhere (s.frame.offset + δ)).serveAll run 1 s.parts
          ((s.elsewhere (s.frame.offset + δ)).opening ledger) = (halt, { h with ledger := ledger' }) ∧
        Ledger.Echoes base δ h.ledger ledger' :=
    fun served => Split.serveAll_alike oblivious 1 _ echoes served
  have cutting : ∀ {s d}, (m.forking i d).split op = (.ok s, d) →
      ((m.elsewhere (m.frame.offset + δ) ledger).forking i d).split op =
        (.ok (s.elsewhere (s.frame.offset + δ)), d) :=
    fun {s d} cut => split_elsewhere (m := m.forking i d) cut
  -- The Fork elsewhere cuts the same text and joins what its tranches leave, which is the same.
  cases serves with
  | @unsplit v d f get cut =>
    have dishes : ((m.forking i d).elsewhere (m.frame.offset + δ) ledger).dish =
        (m.forking i d).dish := rfl
    have same := split_congr op dishes
    rw [cut] at same
    have serves' : (m.elsewhere (m.frame.offset + δ) ledger).Serves run i op _ _ := .unsplit get same
    exact ⟨_, serves', .intro (m := m.forking i d) echoes⟩
  | @halted v d s halt h get cut served =>
    obtain ⟨ledger', served', echoed⟩ := tranches served
    have serves' : (m.elsewhere (m.frame.offset + δ) ledger).Serves run i op _ _ :=
      .halted get (cutting cut) served'
    exact ⟨_, serves', .intro (m := { m.forking i d with ledger := h.ledger }) echoed⟩
  | @unset v d s h e get cut served set =>
    obtain ⟨ledger', served', echoed⟩ := tranches served
    have serves' : (m.elsewhere (m.frame.offset + δ) ledger).Serves run i op _ _ :=
      .unset get (cutting cut) served' set
    exact ⟨_, serves', .intro (m := { m.forking i d with ledger := h.ledger }) echoed⟩
  | @joined v d d' s h get cut served set =>
    obtain ⟨ledger', served', echoed⟩ := tranches served
    have serves' : (m.elsewhere (m.frame.offset + δ) ledger).Serves run i op _ _ :=
      .joined get (cutting cut) served' set
    exact ⟨_, serves', .intro
      (m := { m.moveTo (i + h.progress) with dish := d', ledger := h.ledger }) echoed⟩

theorem Alike.note (alike : Alike base δ m m') {e : Event} (other : ∀ p, e ≠ .published p) :
    Alike base δ (m.note e) (m'.note e) := by
  obtain @⟨ledger, echoes⟩ := alike
  exact .intro (m := m.note e) (echoes.note other other)

theorem Alike.enter (alike : Alike base δ m m') (i : Int) (op : Operation) :
    Alike base δ (m.enter i op) (m'.enter i op) := by
  obtain @⟨ledger, echoes⟩ := alike
  exact .intro (m := m.enter i op)
    (echoes.count.note (fun _ => Event.noConfusion) fun _ => Event.noConfusion)

theorem Alike.complete (alike : Alike base δ m m') (last : Option Nat) :
    Alike base δ { m with last } { m' with last } := by
  obtain @⟨ledger, echoes⟩ := alike
  exact .intro (m := { m with last }) echoes

theorem Alike.ops (alike : Alike base δ m m') : m'.ops = m.ops := by
  cases alike
  rfl

theorem Alike.ready {start : Int} (alike : Alike base δ m m') (ready : m.Ready start i op) :
    m'.Ready start i op := by
  obtain @⟨ledger, echoes⟩ := alike
  exact ⟨ready.here, ready.enabled, ready.goes, exceeded_unlimited (l := ledger.count) echoes.free'⟩

theorem conclude_alike (alike : Alike base δ m m') (halt : Halt) :
    Turn.Lockstep (Alike base δ) (m.conclude i op halt) (m'.conclude i op halt) := by
  obtain @⟨ledger, echoes⟩ := alike
  unfold conclude
  cases halt with
  | failed f =>
    dsimp only
    split
    · exact .ended (.intro (m := { m with dish := ⟨.ofGlyphs f.message, Kind.string.tag⟩ }) echoes)
    · exact .ended (.intro echoes)
  | _ => exact .ended (.intro echoes)

theorem Rounds.alike {start : Int} {t : Turn} (oblivious : Oblivious run)
    (rounds : m.Rounds run start i t) (alike : Alike base δ m m') :
    t.Lockstep (Alike base δ) (m'.round run start i) := by
  have ops := alike.ops
  have at_place : ∀ {r}, m.opAt? i = r → m'.opAt? i = r := by
    intro r here
    unfold opAt?
    rw [ops]
    exact here
  -- No test of a round looks at the offset, and the one that looks at the ledger asks for its limit.
  cases rounds with
  | completed beyond =>
    rw [← ops] at beyond ⊢
    have both : m'.Rounds run start i _ := .completed beyond
    rw [both.eq]
    exact .ended (alike.note fun _ => Event.noConfusion)
  | outside within missing =>
    rw [← ops] at within
    have both : m'.Rounds run start i _ := .outside within (at_place missing)
    rw [both.eq]
    exact .ended alike
  | skipped here disabled =>
    have both : m'.Rounds run start i _ := .skipped (at_place here) disabled
    rw [both.eq]
    exact .onward (alike.note fun _ => Event.noConfusion)
  | paused here enabled pauses =>
    have both : m'.Rounds run start i _ := .paused (at_place here) enabled pauses
    rw [both.eq]
    exact .ended (alike.note fun _ => Event.noConfusion)
  | exceeded here enabled goes excess =>
    have free : m.ledger.limit = none := by
      cases alike with
      | intro echoes => exact echoes.free
    rw [exceeded_unlimited (l := m.ledger.count) free] at excess
    cases excess
  | @failed op f k ready acts =>
    obtain ⟨k', acts', alike'⟩ := acts.alike (alike.enter i op)
    have both : m'.Rounds run start i _ := .failed (alike.ready ready) acts'
    rw [both.eq]
    exact conclude_alike alike' _
  | @acted op j k ready acts =>
    obtain ⟨k', acts', alike'⟩ := acts.alike (alike.enter i op)
    have both : m'.Rounds run start i _ := .acted (alike.ready ready) acts'
    rw [both.eq, ops]
    exact .onward (alike'.complete _)
  | @halted op halt k ready fork serves =>
    obtain ⟨k', serves', alike'⟩ := serves.alike oblivious (alike.enter i op)
    have both : m'.Rounds run start i _ := .halted (alike.ready ready) fork serves'
    rw [both.eq]
    exact conclude_alike alike' _
  | @served op j k ready fork serves =>
    obtain ⟨k', serves', alike'⟩ := serves.alike oblivious (alike.enter i op)
    have both : m'.Rounds run start i _ := .served (alike.ready ready) fork serves'
    rw [both.eq, ops]
    exact .onward (alike'.complete _)

theorem drive_alike {start : Int} (oblivious : Oblivious run) (fuel : Nat) (alike : Alike base δ m m') :
    (m'.drive run start fuel i).1 = (m.drive run start fuel i).1 ∧
      Alike base δ (m.drive run start fuel i).2 (m'.drive run start fuel i).2 := by
  induction fuel generalizing i m m' with
  | zero => exact ⟨rfl, alike⟩
  | succ fuel ih =>
    obtain ⟨t, rounds⟩ := rounds_round run start i m
    have both := rounds.alike oblivious alike
    unfold drive
    rw [rounds.eq]
    generalize m'.round run start i = t' at both
    cases both with
    | ended alike' => exact ⟨rfl, alike'⟩
    | onward alike' => exact ih alike'

/-- An execution without a limit ends in the same way wherever it runs. -/
theorem execute_alike (depth : Nat) (start : Int) (alike : Alike base δ m m') :
    (m'.execute depth start).1 = (m.execute depth start).1 ∧
      Alike base δ (m.execute depth start).2 (m'.execute depth start).2 := by
  induction depth generalizing start base δ m m' with
  | zero => exact ⟨rfl, alike⟩
  | succ depth ih =>
    have oblivious : Oblivious (execute depth 0) := fun _ _ n n' alike' => ih 0 alike'
    have limits : m.ledger.limit = none ∧ m'.ledger.limit = none := by
      cases alike with
      | intro echoes => exact ⟨echoes.free, echoes.free'⟩
    unfold execute
    -- The rounds that are granted depend on the operations and the limit alone.
    rw [limits.1, limits.2, alike.ops]
    exact drive_alike oblivious _ (alike.note fun _ => Event.noConfusion)

theorem oblivious_run : Oblivious (Machine.run 0) := by
  intro base δ m m' alike
  unfold Machine.run
  rw [alike.ops]
  exact execute_alike _ 0 alike

end Machine

end Kitchen.Run

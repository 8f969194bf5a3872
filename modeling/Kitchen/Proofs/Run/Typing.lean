import Kitchen.Proofs.Run.Deeds
import Kitchen.Proofs.Run.Faults
import Kitchen.Proofs.Run.Shape
import Kitchen.Proofs.Transform.Faithful

namespace Kitchen

open Text (Glyph)

theorem Operation.Textual.akin {a b : Operation} (same : a.Akin b) (textual : a.Textual) :
    b.Textual := by
  intro p primitive
  rw [same.primitive] at primitive
  rw [same.rest]
  exact textual p primitive

theorem Operation.apply_refused {op : Operation} {v : Value} {message : List Glyph}
    (refused : op.produce v = .error (.refused message)) : op.apply v = .error (.refused message) := by
  rcases bind_error refused with refused | ⟨out, -, unset⟩
  · exact refused
  · obtain ⟨e, -, refused⟩ := mapError_error unset
    exact absurd refused Failure.ofDish_unrefused

namespace Run.Machine

variable {Of : Kind → Value → Prop} {Arg : Value → Prop} {run : Machine → Stop × Machine} {start i : Int}
  {op : Operation} {m k child : Machine} {t : Turn} {d : Dish} {s : Split} {v : Value}

-- The dish has a value of its type, and the operations keep it so.
structure Sound (m : Machine) : Prop where
  dish : m.dish.Typed
  ops : ∀ op ∈ m.ops, op.Sound

structure Keeping (Of : Kind → Value → Prop) (Arg : Value → Prop) (m : Machine) : Prop where
  dish : m.dish.OfType Of
  ops : ∀ op ∈ m.ops, op.Keeps Of Arg

theorem sound_iff : m.Sound ↔ m.Keeping Kind.Holds fun _ => True := by
  constructor
  · exact fun sound => ⟨sound.dish, fun op mem => Operation.sound_iff.mp (sound.ops op mem)⟩
  · exact fun keeping => ⟨keeping.dish, fun op mem => Operation.sound_iff.mpr (keeping.ops op mem)⟩

theorem Keeping.of_eq (keeping : m.Keeping Of Arg) (dish : k.dish = m.dish) (ops : k.ops = m.ops) :
    k.Keeping Of Arg := by
  refine ⟨?_, ?_⟩
  · rw [dish]
    exact keeping.dish
  · rw [ops]
    exact keeping.ops

theorem resolveArgs_keeps (sense : Kind.Sense Of Arg) {c : Reference.Capture}
    (texts : ∀ t ∈ c.texts, Of .string (.ofGlyphs t)) (keeps : op.Keeps Of Arg) :
    (resolveArgs c op).Keeps Of Arg := by
  unfold resolveArgs
  split
  · exact keeps
  · refine ⟨keeps.primitive, keeps.transform, fun a mem => ?_⟩
    obtain ⟨v, there, rfl⟩ := List.mem_map.mp mem
    exact sense.filled texts (keeps.args v there)

/-- Captured texts that are texts in a sense are filled in without harm. -/
theorem capture_keeps (sense : Kind.Sense Of Arg) {texts : List (List Glyph)}
    (held : ∀ t ∈ texts, Of .string (.ofGlyphs t)) (keep : ∀ op ∈ m.ops, op.Keeps Of Arg) :
    ∀ op ∈ (m.capture texts).ops, op.Keeps Of Arg := by
  intro op mem
  rcases List.mem_append.mp mem with front | rest
  · exact keep op (List.mem_of_mem_take front)
  · obtain ⟨op₀, there, rfl⟩ := List.mem_map.mp rest
    exact resolveArgs_keeps sense held (keep op₀ (List.mem_of_mem_drop there))

/-- Where a dish is asked for a text, it gives one. -/
theorem get_text_ofType {w : Value} {d' : Dish} (sense : Kind.Sense Of Arg) (typed : d.OfType Of)
    (get : d.get "string" = .ok (w, d')) : Of .string w := by
  obtain ⟨-, k, known, here⟩ := Dish.get_ofType sense typed get
  obtain rfl := Option.some.inj ((kind_of_tag .string).symm.trans known)
  exact here

theorem Acts.keep {r : Except Failure Int} (sense : Kind.Sense Of Arg) (keeping : m.Keeping Of Arg)
    (acts : m.Acts i op r k) : ∀ op ∈ k.ops, op.Keeps Of Arg := by
  cases acts with
  | @enacted p v d d' deed primitive other get decided =>
    cases deed with
    | capture texts =>
      -- What is captured are stretches of the text that the dish is.
      obtain ⟨w, gs, again, text, stretches⟩ := Deed.ofPrimitive_stretches primitive decided
      have here := get_text_ofType sense (Dish.get_ofType sense keeping.dish get).1 again
      rw [Value.eq_ofGlyphs text] at here
      have held : ∀ t ∈ texts, Of .string (.ofGlyphs t) :=
        fun t mem => sense.part here fun e there => (stretches t mem).subset there
      exact capture_keeps (m := { m.moveTo i with dish := d' }) sense held keeping.ops
    | _ => exact keeping.ops
  | _ => exact keeping.ops

theorem Acts.ofType {r : Except Failure Int} (sense : Kind.Sense Of Arg) (typed : m.dish.OfType Of)
    (keeps : op.Keeps Of Arg) (acts : m.Acts i op r k) : k.dish.OfType Of := by
  -- What a primitive leaves is the dish that it was given, or this dish as text.
  have decides : ∀ {v d d' r p}, m.dish.get op.input = .ok (v, d) →
      Deed.ofPrimitive m.outlook op d p = (r, d') → d'.OfType Of := by
    intro v d d' r p get decided
    have turned := (Dish.get_ofType sense typed get).1
    rcases Deed.ofPrimitive_dish m.outlook op d p with same | ⟨w, again⟩
    · rw [decided] at same
      dsimp only at same
      rw [same]
      exact turned
    · rw [decided] at again
      exact (Dish.get_ofType sense turned again).1
  cases acts with
  | unreadable get => exact typed
  | refused ordinary get made => exact (Dish.get_ofType sense typed get).1
  | produced ordinary get made =>
    obtain ⟨-, k, known, here⟩ := Dish.get_ofType sense typed get
    exact keeps.produce sense known here made
  | declined primitive other get decided => exact decides get decided
  | enacted primitive other get decided =>
    rw [enact_dish]
    exact decides get decided

/-- Only a transform refuses, and what it has to say is a text. -/
theorem Acts.refusal {message : List Glyph} (sense : Kind.Sense Of Arg) (typed : m.dish.OfType Of)
    (keeps : op.Keeps Of Arg) (acts : m.Acts i op (.error (.refused message)) k) :
    Of .string (.ofGlyphs message) := by
  generalize failed : (Except.error (Failure.refused message) : Except Failure Int) = r at acts
  cases acts with
  | unreadable get =>
    have same := Except.error.inj failed
    exact absurd same.symm Failure.ofDish_unrefused
  | refused ordinary get made =>
    cases failed
    obtain ⟨-, k, known, here⟩ := Dish.get_ofType sense typed get
    have applied := op.apply_refused made
    unfold Operation.apply at applied
    split at applied
    · cases applied
    · split at applied
      · cases applied
      · next t handler =>
        obtain ⟨input, -, keeping⟩ := keeps.transform t handler
        rw [input] at known
        exact keeping.refuses k _ op.args message known here keeps.args applied
  | declined primitive other get decided =>
    cases failed
    rcases Deed.ofPrimitive_fault (congrArg Prod.fst decided) with ordinary | short
    · exact absurd rfl (Failure.unrefused_of_isOrdinary ordinary)
    · cases short.failure
  | _ => cases failed

theorem mem_of_mem_splitText {α : Type} [BEq α] {separator xs part : List α} {x : α} {fuel : Nat}
    (part_mem : part ∈ splitText separator fuel xs) (mem : x ∈ part) : x ∈ xs := by
  induction fuel generalizing xs part with
  | zero =>
    obtain rfl := List.mem_singleton.mp part_mem
    exact mem
  | succ fuel ih =>
    cases xs with
    | nil =>
      obtain rfl := List.mem_singleton.mp part_mem
      exact mem
    | cons c rest =>
      rw [splitText] at part_mem
      split at part_mem
      · rcases List.mem_cons.mp part_mem with rfl | later
        · cases mem
        · exact List.mem_of_mem_drop (ih later mem)
      · split at part_mem
        · obtain rfl := List.mem_singleton.mp part_mem
          obtain rfl := List.mem_singleton.mp mem
          exact List.mem_cons_self
        · next split =>
          rcases Transform.mem_of_mem_consFirst part_mem mem with rfl | ⟨part, there, mem⟩
          · exact List.mem_cons_self
          · exact List.mem_cons_of_mem c (ih (split ▸ there) mem)

theorem mem_of_mem_stretches {α : Type} {p : α → Bool} {xs part : List α} {x : α}
    (part_mem : part ∈ stretches p xs) (mem : x ∈ part) : x ∈ xs := by
  induction xs generalizing part with
  | nil => cases part_mem
  | cons c rest ih =>
    have later {part : List α} (there : part ∈ stretches p rest) (mem : x ∈ part) : x ∈ c :: rest :=
      List.mem_cons_of_mem c (ih there mem)
    unfold stretches at part_mem
    split at part_mem
    · exact later part_mem mem
    · split at part_mem
      · obtain rfl := List.mem_singleton.mp part_mem
        exact mem
      · split at part_mem
        · rcases List.mem_cons.mp part_mem with rfl | there
          · exact List.mem_cons.mpr (.inl (List.mem_singleton.mp mem))
          · exact later there mem
        · split at part_mem
          · obtain rfl := List.mem_singleton.mp part_mem
            exact List.mem_cons.mpr (.inl (List.mem_singleton.mp mem))
          · next split =>
            rcases Transform.mem_of_mem_consFirst part_mem mem with rfl | ⟨part, there, mem⟩
            · exact List.mem_cons_self
            · exact later (split ▸ there) mem

/-- The parts of a text are texts, with nothing in them that is not in it. -/
theorem tranches_text {separator : Value} {gs : List Glyph} {parts : List Value}
    (cut : tranches separator (.ofGlyphs gs) = .ok parts) :
    ∀ v ∈ parts, ∃ part, v = .ofGlyphs part ∧ ∀ g ∈ part, g ∈ gs := by
  have between {parts : List Value} (cut : splitGlyphs separator gs = .ok parts) :
      ∀ v ∈ parts, ∃ part, v = .ofGlyphs part ∧ ∀ g ∈ part, g ∈ gs := by
    unfold splitGlyphs at cut
    intro v mem
    split at cut
    · cases cut
      obtain ⟨part, there, rfl⟩ := List.mem_map.mp mem
      exact ⟨part, rfl, fun g => mem_of_mem_splitText there⟩
    · cases cut
      obtain ⟨part, there, rfl⟩ := List.mem_map.mp mem
      exact ⟨part, rfl, fun g => mem_of_mem_stretches there⟩
    · cases cut
  unfold tranches at cut
  -- Nothing is cut into no parts; otherwise the parts are glyphs, or stretches of the text.
  split at cut
  · cases cut
    exact fun v mem => absurd mem List.not_mem_nil
  · split at cut
    · rw [itemsOf_ofGlyphs] at cut
      cases cut
      intro v mem
      obtain ⟨g, there, rfl⟩ := List.mem_map.mp mem
      exact ⟨[g], rfl, List.forall_mem_singleton.mpr there⟩
    · rw [splitValue_ofGlyphs] at cut
      exact between cut

/-- Every tranche begins with a text, and with the operations of its Fork. -/
theorem Split.Opens.keeping (sense : Kind.Sense Of Arg) (shaped : KeepsShape run) (keeping : m.Keeping Of Arg)
    (keeps : op.Keeps Of Arg) (fork : op.primitive? = some .fork)
    (cut : m.split op = (.ok s, d)) {ledger : Ledger}
    (opens : s.Opens run ledger child) : child.Keeping Of Arg := by
  have input := (keeps.primitive _ fork).1
  have ops := opens.ops shaped
  obtain ⟨separator, delimiter, ignoring, more, w, parts, -, get, cutting, rfl⟩ := split_ok cut
  constructor
  · -- The input is text, so its parts are.
    obtain ⟨-, k, known, here⟩ := Dish.get_ofType sense keeping.dish get
    rw [input] at known
    obtain rfl := Option.some.inj ((kind_of_tag .string).symm.trans known)
    obtain ⟨gs, rfl⟩ := Value.exists_ofGlyphs (sense.isText here)
    have texts := tranches_text cutting
    cases opens with
    | @intro before after part h dish split served made =>
      have mem : part ∈ parts := by
        change parts = before ++ part :: after at split
        rw [split]
        exact List.mem_append_right before List.mem_cons_self
      obtain ⟨hs, rfl, within⟩ := texts part mem
      change Dish.make (.ofGlyphs hs) op.input = .ok dish at made
      rw [input, Dish.make_isText (Value.isText_ofGlyphs hs)] at made
      cases made
      exact Dish.ofType_of_kind (k := .string) (.inr (sense.part here fun e => within _)) rfl
  · intro op' mem
    rw [ops] at mem
    exact keeping.ops op' (m.forkBody_subset mem)

/-- What the tranches of a Fork bring makes up a text, if they keep to the types. -/
theorem Split.output_ofType (sense : Kind.Sense Of Arg)
    (keep : ∀ n : Machine, n.Keeping Of Arg → (run n).2.Keeping Of Arg) {ledger : Ledger} {h : Harvest}
    (children : ∀ child, s.Opens run ledger child → child.Keeping Of Arg)
    (output : s.op.output = "string") (delimiter : Of .string (.ofGlyphs s.delimiter))
    (served : s.serveAll run 1 s.parts (s.opening ledger) = (none, h)) :
    Of .string (.ofGlyphs h.output) := by
  apply sense.joined
  let Joined (h : Harvest) : Prop := ∀ e, .half e ∈ h.output → ∃ hs, .half e ∈ hs ∧ Of .string (.ofGlyphs hs)
  have opening : Joined (s.opening ledger) := fun e mem => absurd mem List.not_mem_nil
  refine s.serveAll_rule Joined (fun _ _ => True) opening ?_ served
  intro number v h halt h' opens sofar serve
  cases serve with
  | @brought dish d stop m progress w made ran reach get =>
    -- The tranche ends with a dish of its type, so that it is read as a text.
    have kept := keep _ (children _ (opens dish made))
    rw [ran] at kept
    rw [output] at get
    obtain ⟨-, k, known, here⟩ := Dish.get_ofType sense kept.dish get
    obtain rfl := Option.some.inj ((kind_of_tag .string).symm.trans known)
    obtain ⟨gs, rfl⟩ := Value.exists_ofGlyphs (sense.isText here)
    intro e mem
    rw [List.mem_append, List.mem_append, outputText_ofGlyphs] at mem
    rcases mem with (before | brought) | after
    · exact sofar e before
    · exact ⟨gs, brought, here⟩
    · exact ⟨s.delimiter, after, delimiter⟩
  | _ => trivial

theorem Serves.ofType {r : Except Halt Int} (sense : Kind.Sense Of Arg) (shaped : KeepsShape run)
    (keep : ∀ n : Machine, n.Keeping Of Arg → (run n).2.Keeping Of Arg) (keeping : m.Keeping Of Arg)
    (keeps : op.Keeps Of Arg) (fork : op.primitive? = some .fork) (serves : m.Serves run i op r k) :
    k.dish.OfType Of := by
  cases serves with
  | unsplit get cut => exact (Dish.get_ofType sense keeping.dish get).1
  | halted get cut served => exact (Dish.get_ofType sense keeping.dish get).1
  | unset get cut served set => exact (Dish.get_ofType sense keeping.dish get).1
  | @joined v d d' s h get cut served set =>
    have forked : (m.forking i d).Keeping Of Arg := ⟨(Dish.get_ofType sense keeping.dish get).1, keeping.ops⟩
    have children : ∀ child, s.Opens run m.ledger child → child.Keeping Of Arg :=
      fun child opens => opens.keeping sense shaped forked keeps fork cut
    obtain ⟨separator, delimiter, ignoring, more, w, parts, args, -, -, rfl⟩ := split_ok cut
    have delimiter : Of .string delimiter.shown := by
      apply sense.shown
      apply keeps.args
      rw [args]
      exact List.mem_cons_of_mem _ List.mem_cons_self
    have output := (keeps.primitive _ fork).2
    have text := Split.output_ofType sense keep children output delimiter served
    refine Dish.set_ofType sense ?_ set
    intro k known
    rw [output] at known
    obtain rfl := Option.some.inj ((kind_of_tag .string).symm.trans known)
    exact .inr text

/-- A Fork refuses nothing, whatever its tranches come to. -/
theorem Serves.unrefused {halt : Halt} {message : List Glyph} (serves : m.Serves run i op (.error halt) k) :
    halt ≠ .failed (.refused message) := by
  have dish {e : Dish.Fault} : Halt.failed (.ofDish e) ≠ .failed (.refused message) :=
    fun same => Failure.ofDish_unrefused (Halt.failed.inj same)
  generalize failed : (Except.error halt : Except Halt Int) = r at serves
  cases serves with
  | unsplit get cut =>
    cases failed
    intro same
    cases same
    rcases split_fault (congrArg Prod.fst cut) with ordinary | short
    · exact Failure.unrefused_of_isOrdinary ordinary rfl
    · cases short.failure
  | @halted v d s halt' h get cut served =>
    cases failed
    refine Split.serveAll_rule (fun _ => True) (fun halt _ => halt ≠ .failed (.refused message)) trivial ?_ served
    intro number v h₁ halt₁ h₂ _ _ serve
    cases serve with
    | unmade made => exact dish
    | @stopped _ stop _ halt₁ made ran reach =>
      cases stop with
      | «at» p => cases reach
      | broken b =>
        rw [Split.reach_broken] at reach
        split at reach
        · cases reach
        · cases reach
          exact Halt.noConfusion
      | outOfRange =>
        cases reach
        exact fun same => Failure.noConfusion (Halt.failed.inj same)
      | _ =>
        cases reach
        exact Halt.noConfusion
    | unread made ran reach get => exact dish
    | brought made ran reach get => trivial
  | unset get cut served set =>
    cases failed
    exact dish
  | joined get cut served set => cases failed

theorem conclude_keeping {onward : Int → Machine → Prop} (i : Int) (op : Operation) {halt : Halt}
    (sense : Kind.Sense Of Arg) (keeping : k.Keeping Of Arg)
    (refusal : ∀ message, halt = .failed (.refused message) → Of .string (.ofGlyphs message)) :
    (k.conclude i op halt).Meets onward (fun _ k' => k'.Keeping Of Arg) := by
  unfold conclude
  cases halt with
  | failed f =>
    dsimp only
    split
    · next expected =>
      refine ⟨Dish.ofGlyphs_ofType ?_, keeping.ops⟩
      cases f with
      | refused message => exact refusal message rfl
      | dish e => exact sense.message e.message
      | _ => cases expected
    · exact keeping
  | _ => exact keeping

theorem Rounds.keeping (sense : Kind.Sense Of Arg) (shaped : KeepsShape run)
    (keep : ∀ n : Machine, n.Keeping Of Arg → (run n).2.Keeping Of Arg) (keeping : k.Keeping Of Arg)
    (rounds : k.Rounds run start i t) :
    t.Meets (fun _ k' => k'.Keeping Of Arg) (fun _ k' => k'.Keeping Of Arg) := by
  have op_keeps : ∀ {op}, k.Ready start i op → op.Keeps Of Arg :=
    fun ready => keeping.ops _ (opAt_mem ready.here)
  have entered : ∀ op, (k.enter i op).Keeping Of Arg := fun _ => keeping.of_eq rfl rfl
  have acted {op : Operation} {r : Except Failure Int} {k' : Machine} (ready : k.Ready start i op)
      (acts : (k.enter i op).Acts i op r k') : k'.Keeping Of Arg :=
    ⟨acts.ofType sense (entered op).dish (op_keeps ready), acts.keep sense (entered op)⟩
  have served {op : Operation} {r : Except Halt Int} {k' : Machine} (ready : k.Ready start i op)
      (fork : op.primitive? = some .fork) (serves : (k.enter i op).Serves run i op r k') : k'.Keeping Of Arg := by
    refine ⟨serves.ofType sense shaped keep (entered op) (op_keeps ready) fork, ?_⟩
    rw [serves.ops]
    exact keeping.ops
  -- Only a round that carries something out touches the dish or the operations.
  cases rounds with
  | @failed op f k' ready acts =>
    refine conclude_keeping i op sense (acted ready acts) fun message refused => ?_
    cases refused
    exact acts.refusal sense (entered op).dish (op_keeps ready)
  | @acted op j k' ready acts => exact (acted ready acts).of_eq rfl rfl
  | @halted op halt k' ready fork serves =>
    have left := served ready fork serves
    exact conclude_keeping i op sense left fun message refused => absurd refused serves.unrefused
  | @served op j k' ready fork serves => exact (served ready fork serves).of_eq rfl rfl
  | _ => exact keeping.of_eq rfl rfl

/-- Executions keep the value of their dish to its type, in every sense in which their operations do. -/
theorem typing (sense : Kind.Sense Of Arg) : Contract (fun _ _ => True)
    (fun _ m _ k => OpsAkin m.ops k.ops ∧ (m.Keeping Of Arg → k.Keeping Of Arg))
    (fun _ m _ k => OpsAkin m.ops k.ops ∧ (m.Keeping Of Arg → k.Keeping Of Arg)) where
  unbegun _ := ⟨.refl _, id⟩
  begins _ := ⟨.refl _, fun keeping => keeping.of_eq rfl rfl⟩
  unended inv := inv
  opens _ _ _ := trivial
  round {run start m i k t} keeps inv rounds := by
    -- The tranches of a Fork begin with the operations of its list because these keep their shape.
    have shaped : KeepsShape run := fun n => (keeps n trivial).1
    have keep : ∀ n : Machine, n.Keeping Of Arg → (run n).2.Keeping Of Arg := fun n => (keeps n trivial).2
    have akin := shape.round (fun n _ => shaped n) inv.1 rounds
    have kept := fun keeping => rounds.keeping sense shaped keep (inv.2 keeping)
    cases t with
    | ended stop k' => exact ⟨akin, kept⟩
    | onward j k' => exact ⟨akin, kept⟩

/-- Executions keep their operations sound and the value of their dish to its type. -/
theorem soundness : Contract (fun _ _ => True)
    (fun _ m _ k => OpsAkin m.ops k.ops ∧ (m.Sound → k.Sound))
    (fun _ m _ k => OpsAkin m.ops k.ops ∧ (m.Sound → k.Sound)) := by
  simp only [sound_iff]
  exact typing Dish.sense_holds

/-- Every tranche that a Fork opens keeps to the types, as the machine that comes to the Fork does. -/
theorem Opens.keeping (sense : Kind.Sense Of Arg) (shaped : KeepsShape run) (keeping : m.Keeping Of Arg)
    (opens : m.Opens run start i child) : child.Keeping Of Arg := by
  cases opens with
  | @intro op v d s _ ready fork get cut opens =>
    have forked : ((m.enter i op).forking i d).Keeping Of Arg :=
      ⟨(Dish.get_ofType sense keeping.dish get).1, keeping.ops⟩
    exact opens.keeping sense shaped forked (keeping.ops op (opAt_mem ready.here)) fork cut

/-- Every execution that arises keeps to the types where it begins, if the outermost one does. -/
theorem Arises.keeping {start' : Int} {m' : Machine} (sense : Kind.Sense Of Arg) (keeping : m.Keeping Of Arg)
    (arises : Arises start m start' m') : m'.Keeping Of Arg := by
  induction arises with
  | outermost => exact keeping
  | tranche outer passes opens ih =>
    have shaped : KeepsShape (Machine.run 0) := fun n => (soundness.upholds_run n trivial).1
    exact opens.keeping sense shaped (((typing sense).passes trivial passes).2 ih)

/-- Every execution that arises in a sound one is sound where it begins. -/
theorem Arises.sound {start' : Int} {m' : Machine} (sound : m.Sound)
    (arises : Arises start m start' m') : m'.Sound :=
  sound_iff.mpr (arises.keeping Dish.sense_holds (sound_iff.mp sound))

end Run.Machine

end Kitchen

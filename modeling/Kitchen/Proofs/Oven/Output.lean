import Kitchen.Proofs.Run.Captures
import Kitchen.Proofs.Run.Escapes

namespace Kitchen

def Kind.Servable : Kind → Value → Prop
  | .string, v => v.isText
  | k, v => k.Admits v

theorem Kind.Admits.servable {k : Kind} {v : Value} (admits : k.Admits v) : k.Servable v := by
  cases k with
  | string => exact admits.holds
  | _ => exact admits

theorem Dish.sense_servable : Kind.Sense Kind.Servable fun _ => True where
  isText text := text
  joined _ := Value.isText_ofGlyphs _
  bytes bs := ⟨bs, rfl⟩
  empty known := (emptyOf_admits known).servable
  read read := (ofBytes_admits read).imp_right Kind.Admits.servable
  shown _ := Value.isText_shown _
  needle _ _ := Value.isText_ofGlyphs _
  filled _ _ := trivial

/-- A dish under the tag of texts is put out as it is. -/
theorem Oven.outputOf_tagged {d : Dish} (tag : d.tag = "string") : ∃ v, Oven.outputOf d = .ok v := by
  obtain ⟨v, tag'⟩ := d
  obtain rfl : tag' = "string" := tag
  have made : ∀ w, Dish.make w "string" = .ok ⟨w, "string"⟩ := by
    intro w
    cases w <;> rfl
  have copied : Dish.clone ⟨v, "string"⟩ = .ok ⟨v, "string"⟩ := made v
  unfold Oven.outputOf
  rw [copied]
  exact ⟨_, rfl⟩

theorem Oven.outputOf_servable {d : Dish} (servable : d.OfType Kind.Servable) :
    ∃ v, Oven.outputOf d = .ok v := by
  by_cases tag : d.tag = "string"
  · exact outputOf_tagged tag
  · obtain ⟨k, known, value⟩ := servable
    have proper : d.Proper := by
      refine ⟨k, known, value.imp_right fun here => ?_⟩
      cases k with
      | string => exact absurd (tag_of_kind known).symm tag
      | _ => exact here
    obtain ⟨s, output⟩ := Oven.outputOf_proper proper
    exact ⟨_, output⟩

namespace Run

namespace Deed

variable {o : Outlook} {op : Operation} {d d' : Dish}

/-- What is captured is captured from a text. -/
theorem capture_servable {p : Primitive} {texts : List (List Text.Glyph)}
    (decided : ofPrimitive o op d p = (.ok (.capture texts), d')) (primitive : op.primitive? = some p) :
    d'.OfType Kind.Servable := by
  obtain ⟨v, gs, get, text, -⟩ := ofPrimitive_stretches primitive decided
  obtain ⟨-, value⟩ := Dish.get_eq get
  refine Dish.ofType_of_kind (k := .string) ?_ (Dish.get_tag get)
  -- The dish holds the text, or nothing, which stands for the empty one.
  unfold Dish.valueOrEmpty at value
  split at value
  · next none => exact .inl none
  · exact .inr (value ▸ Value.isText_of_glyphs? text)

end Deed

namespace Machine

variable {run : Machine → Stop × Machine} {start i : Int} {op : Operation} {m k : Machine} {t : Turn}

-- Nothing was published on the way to a machine, or what its dish holds can be put out.
def Heard (m k : Machine) : Prop :=
  k.ledger.publications = m.ledger.publications ∨ k.dish.OfType Kind.Servable

def Told (m k : Machine) : Prop :=
  Heard m k ∨ k.dish.tag = "string"

/-- What an operation captures, it captures from a text, and it leaves the text. -/
theorem Acts.servable_of_captured {j : Int} (acts : m.Acts i op (.ok j) k) (captured : m.captured op ≠ []) :
    k.dish.OfType Kind.Servable := by
  generalize hr : Except.ok j = r at acts
  cases acts with
  | produced ordinary get made =>
    have register := captured_register captured
    rw [ordinary] at register
    cases register
  | @enacted p v d d' deed primitive other get decided =>
    rw [captured_deed primitive get decided] at captured
    rw [enact_dish]
    cases deed with
    | capture texts => exact Deed.capture_servable decided primitive
    | _ => exact absurd rfl captured
  | _ => cases hr

/-- An operation other than a Fork publishes something only if what it leaves can be put out. -/
theorem Acts.heard {r : Except Failure Int} (acts : m.Acts i op r k)
    (keeps : op.Keeps Kind.Servable fun _ => True) {m₀ : Machine} (heard : Heard m₀ m) : Heard m₀ k := by
  rcases heard with quiet | servable
  · cases r with
    | error f => exact .inl ((congrArg Ledger.publications acts.failed_ledger).trans quiet)
    | ok j =>
      by_cases captured : m.captured op = []
      · have publications := acts.publishes.publications
        rw [if_pos captured, List.append_nil] at publications
        exact .inl (publications.trans quiet)
      · exact .inr (acts.servable_of_captured captured)
  · exact .inr (acts.ofType Dish.sense_servable servable keeps)

/-- Whatever its tranches publish, a Fork leaves a dish under the tag of texts, and a text in it if it comes to its
end. -/
theorem Serves.told {r : Except Halt Int} (serves : m.Serves run i op r k) (textual : op.Textual)
    (fork : op.primitive? = some .fork) :
    k.dish.tag = "string" ∧ ∀ j, r = .ok j → k.dish.OfType Kind.Servable := by
  obtain ⟨input, output⟩ := textual _ fork
  have read : ∀ {v d}, m.dish.get op.input = .ok (v, d) → d.tag = "string" := by
    intro v d get
    rw [input] at get
    exact Dish.get_tag get
  cases serves with
  | unsplit get cut => exact ⟨read get, fun _ => nofun⟩
  | halted get cut served => exact ⟨read get, fun _ => nofun⟩
  | unset get cut served set => exact ⟨read get, fun _ => nofun⟩
  | @joined v d d' s h get cut served set =>
    have text := Value.isText_ofGlyphs h.output
    rw [output, Dish.set_isText text] at set
    cases set
    exact ⟨rfl, fun _ _ => Dish.ofType_of_kind (k := .string) (.inr text) rfl⟩

theorem conclude_told {onward : Int → Machine → Prop} (i : Int) (op : Operation) (halt : Halt)
    (told : Told m k) : (k.conclude i op halt).Meets onward (fun _ k' => Told m k') := by
  unfold conclude
  cases halt with
  | failed f =>
    dsimp only
    split
    · exact .inr rfl
    · exact told
  | _ => exact told

theorem Rounds.told {m₀ : Machine} (keep : ∀ op ∈ m.ops, op.Keeps Kind.Servable fun _ => True) (heard : Heard m₀ m)
    (rounds : m.Rounds run start i t) :
    t.Meets (fun _ k => Heard m₀ k) (fun _ k => Told m₀ k) := by
  have noted : ∀ e, (∀ p, e ≠ .published p) → Heard m₀ (m.note e) := by
    intro e other
    rcases heard with quiet | servable
    · exact .inl ((m.ledger.note_publications e other).trans quiet)
    · exact .inr servable
  have entered : ∀ op, Heard m₀ (m.enter i op) := by
    intro op
    rcases heard with quiet | servable
    · exact .inl ((enter_publications m i op).trans quiet)
    · exact .inr servable
  have keeps : ∀ {op}, m.Ready start i op → op.Keeps Kind.Servable (fun _ => True) :=
    fun ready => keep _ (opAt_mem ready.here)
  cases rounds with
  | completed beyond => exact .inl (noted _ fun _ => Event.noConfusion)
  | outside within missing => exact .inl heard
  | skipped here disabled => exact noted _ fun _ => Event.noConfusion
  | paused here enabled pauses => exact .inl (noted _ fun _ => Event.noConfusion)
  | exceeded here enabled goes excess => exact .inl heard
  | @failed op f k ready acts =>
    have left := acts.heard (keeps ready) (entered op)
    exact conclude_told i op (.failed f) (.inl left)
  | @acted op j k ready acts =>
    have left := acts.heard (keeps ready) (entered op)
    exact left
  | @halted op halt k ready fork serves =>
    have left := (serves.told (keeps ready).primitive fork).1
    exact conclude_told i op halt (.inr left)
  | @served op j k ready fork serves =>
    have left := (serves.told (keeps ready).primitive fork).2 j rfl
    exact .inr left

/-- Where arguments are not asked for anything, references filled in them change nothing. -/
theorem OpsAkin.keep {Of : Kind → Value → Prop} {ops ops' : List Operation} (akin : OpsAkin ops ops')
    (keep : ∀ op ∈ ops, op.Keeps Of fun _ => True) : ∀ op ∈ ops', op.Keeps Of fun _ => True := by
  intro op mem
  obtain ⟨op₀, mem₀, same⟩ := OpsAkin.back akin mem
  obtain ⟨primitive, transform, -⟩ := keep op₀ mem₀
  refine ⟨.akin same primitive, fun t handler => ?_, fun _ _ => trivial⟩
  rw [same.rest] at handler ⊢
  exact transform t handler

/-- An execution whose operations keep to the types publishes something only if its dish can be put out
where it ends. -/
theorem hearing : Contract (fun _ _ => True)
    (fun _ m _ k => OpsAkin m.ops k.ops ∧ ((∀ op ∈ m.ops, op.Keeps Kind.Servable fun _ => True) → Heard m k))
    (fun _ m _ k => OpsAkin m.ops k.ops ∧ ((∀ op ∈ m.ops, op.Keeps Kind.Servable fun _ => True) → Told m k)) where
  unbegun _ := ⟨.refl _, fun _ => .inl (.inl rfl)⟩
  begins {start m} _ :=
    ⟨.refl _, fun _ => .inl (m.ledger.note_publications _ fun _ => Event.noConfusion)⟩
  unended inv := ⟨inv.1, fun keep => .inl (inv.2 keep)⟩
  opens _ _ _ := trivial
  round {run start m i k t} keeps inv rounds := by
    have shaped : Upholds (fun _ _ => True) (fun _ m _ k => OpsAkin m.ops k.ops) run :=
      fun n _ => (keeps n trivial).1
    have akin := shape.round shaped inv.1 rounds
    have told := fun keep : ∀ op ∈ m.ops, op.Keeps Kind.Servable (fun _ => True) =>
      rounds.told (OpsAkin.keep inv.1 keep) (inv.2 keep)
    cases t with
    | ended stop k' => exact ⟨akin, told⟩
    | onward j k' => exact ⟨akin, told⟩

end Machine

end Run

namespace Oven

open Run

-- The publications of a bake, in order.
def published (o : Oven) (v : Value) (tag : String) : List Publication :=
  match Dish.make v tag with
  | .error _ => []
  | .ok dish => ((Machine.fresh o.ops dish o.limit).run 0).2.ledger.publications

-- The texts that a bake captures, in order.
def captured (o : Oven) (v : Value) (tag : String) : List (List Text.Glyph) :=
  (o.published v tag).flatMap (·.texts)

/-- The registers of a bake that has a result are the texts that it captured. -/
theorem registers_captured {o : Oven} {v : Value} {tag : String} {b : Bake}
    (baked : (o.bake v tag).1 = .ok b) : b.registers = o.captured v tag := by
  unfold bake at baked
  unfold captured published
  cases made : Dish.make v tag with
  | error e =>
    rw [made] at baked
    cases baked
  | ok dish =>
    rw [made] at baked
    let m := Machine.fresh o.ops dish o.limit
    have agrees : (m.run 0).2.ledger.Agrees := (Machine.growth.run trivial).agrees rfl
    change b.registers = (m.run 0).2.ledger.publications.flatMap _
    dsimp only at baked
    generalize m.run 0 = ended at agrees baked
    cases output : outputOf ended.2.dish with
    | error e =>
      rw [output] at baked
      cases baked
    | ok text =>
      rw [output] at baked
      cases baked
      exact agrees

/-- If the operations keep to the types, a bake without a result has captured nothing. -/
theorem captured_nil {o : Oven} (keep : ∀ op ∈ o.ops, op.Keeps Kind.Servable fun _ => True) {v : Value}
    {tag : String} {f : Failure} (failed : (o.bake v tag).1 = .error f) : o.captured v tag = [] := by
  unfold bake at failed
  unfold captured published
  cases made : Dish.make v tag with
  | error e => rfl
  | ok dish =>
    rw [made] at failed
    let m := Machine.fresh o.ops dish o.limit
    have told : Machine.Told m (m.run 0).2 := (Machine.hearing.run trivial).2 keep
    change (m.run 0).2.ledger.publications.flatMap _ = _
    dsimp only at failed
    generalize m.run 0 = ended at told failed
    cases output : outputOf ended.2.dish with
    | ok text =>
      rw [output] at failed
      cases failed
    | error e =>
      -- Neither what can be put out is in such a dish, nor is it under the tag of texts.
      have lost : ∀ {w}, outputOf ended.2.dish ≠ .ok w := by
        intro w here
        rw [output] at here
        cases here
      rcases told with (quiet | servable) | tagged
      · exact congrArg (List.flatMap (·.texts)) quiet
      · obtain ⟨s, here⟩ := outputOf_servable servable
        exact absurd here lost
      · obtain ⟨w, here⟩ := outputOf_tagged tagged
        exact absurd here lost

end Oven

end Kitchen

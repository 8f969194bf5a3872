import Kitchen.Oven
import Kitchen.Proofs.Run.Places
import Kitchen.Proofs.Run.Termination
import Kitchen.Proofs.Run.Typing

/-!
What a run can come to when its dish and what its transforms make are proper: it stops, it breaks, or it
passes its limit. Its dish stays proper throughout, so that at any time it can be read as text, and a bake
always has an output.
-/
namespace Kitchen

/-- A proper dish is put out as text, whatever its type: its copy is as proper as itself. -/
theorem Oven.outputOf_proper {d : Dish} (proper : d.Proper) :
    ∃ s, Oven.outputOf d = .ok (.text s) := by
  obtain ⟨d', copied, proper'⟩ := proper.clone
  obtain ⟨s, d'', get⟩ := proper'.get_text
  refine ⟨s, ?_⟩
  unfold Oven.outputOf
  rw [copied]
  change (d'.get "string" >>= _) = _
  rw [get]
  rfl

namespace Run

namespace Stop

-- The run returned, with the place where it stopped.
def Returned (stop : Stop) : Prop :=
  ∃ place, stop = .at place

-- The run returned, or raised one of the two failures that it reports: that an operation broke it, or that it
-- passed its limit.
def Reported (stop : Stop) : Prop :=
  stop.Returned ∨ (∃ b, stop = .broken b) ∨ ∃ l, stop = .overLimit l

theorem Lies.reported {stop : Stop} {ops : List Operation} (lies : stop.Lies ops)
    (finished : stop ≠ .unfinished) : stop.Reported := by
  cases stop with
  | «at» place => exact .inl ⟨place, rfl⟩
  | broken b => exact .inr (.inl ⟨b, rfl⟩)
  | overLimit l => exact .inr (.inr ⟨l, rfl⟩)
  | outOfRange => exact lies.elim
  | unfinished => exact absurd rfl finished

/-- A bake reports no error of a run that returned, and one of a run that did not. -/
theorem Reported.verdict {stop : Stop} (reported : stop.Reported) (m : Machine) :
    (Oven.verdict stop m).2 = none ↔ stop.Returned := by
  rcases reported with ⟨place, rfl⟩ | ⟨b, rfl⟩ | ⟨l, rfl⟩
  · exact ⟨fun _ => ⟨place, rfl⟩, fun _ => rfl⟩
  · exact ⟨fun none => absurd none (Option.some_ne_none _), fun returned => returned.elim nofun⟩
  · exact ⟨fun none => absurd none (Option.some_ne_none _), fun returned => returned.elim nofun⟩

end Stop

namespace Machine

variable {ops : List Operation} {dish : Dish} {limit : Option Int} {start : Int} {m : Machine}

structure Wholesome (d : Dish) : Prop where
  proper : d.Proper
  text : ∃ s d', d.get "string" = .ok (.text s, d')

theorem wholesome_of_proper {d : Dish} (proper : d.Proper) : Wholesome d :=
  ⟨proper, proper.get_text⟩

-- An execution that nothing but what it reports escapes from: its dish is wholesome wherever it comes by and
-- where it ends, and if it ends, then in a way that it reports.
structure Contained (start : Int) (m : Machine) : Prop where
  during : ∀ n i k, Passes start m n i k → Wholesome k.dish
  after : Wholesome (m.run start).2.dish
  stop : (m.run start).1 ≠ .unfinished → (m.run start).1.Reported

/-- An execution with a proper dish is contained if its operations keep to the types. -/
theorem Keeping.contained (keeping : m.Keeping Kind.Admits (·.isUntorn)) (front : 0 ≤ start) :
    Contained start m := by
  have typing := typing Dish.sense_admits
  constructor
  case during =>
    intro n i k passes
    have keeping' : k.Keeping Kind.Admits (·.isUntorn) := (typing.passes trivial passes).2 keeping
    exact wholesome_of_proper keeping'.dish
  case after =>
    have keeping' : (m.run start).2.Keeping Kind.Admits (·.isUntorn) := (typing.run trivial).2 keeping
    exact wholesome_of_proper keeping'.dish
  case stop =>
    intro finished
    have lies : (m.run start).1.Lies m.ops := (places.run trivial).lies front
    exact lies.reported finished

/-- A bake of a proper value has an output, and reports an error exactly if its run did not return. -/
theorem bake_contained {o : Oven} {v : Value} {tag : String} (proper : Dish.Proper ⟨v, tag⟩)
    (contained : Contained 0 (fresh o.ops ⟨v, tag⟩ o.limit)) :
    ∃ b s, (o.bake v tag).1 = .ok b ∧ b.output = .text s ∧
      (((fresh o.ops ⟨v, tag⟩ o.limit).run 0).1 ≠ .unfinished →
        (b.error = none ↔ ((fresh o.ops ⟨v, tag⟩ o.limit).run 0).1.Returned)) := by
  have made : Dish.make v tag = .ok ⟨v, tag⟩ := proper.make
  obtain ⟨s, output⟩ := Oven.outputOf_proper contained.after.proper
  have reported := contained.stop
  unfold Oven.bake
  rw [made]
  dsimp only
  generalize (fresh o.ops ⟨v, tag⟩ o.limit).run 0 = ended at output reported ⊢
  rw [output]
  refine ⟨_, s, rfl, rfl, fun finished => ?_⟩
  exact (reported finished).verdict ended.2

/-- Only reported failures escape. Take a compiled recipe without halves in its arguments, whose transforms make
proper values of proper values, or fail, with no halves in what they refuse; halves are proper in a JSON value, but
not in a text. From a proper dish, under any limit and from any place that is not before the front, every execution
that arises at any nesting keeps its dish proper, so that it can be read as text, and it returns or raises one of the
failures that it reports; and it does come to an end if there is a limit or all budgets of jumps are bounded. So a
bake of a proper value has an output, which is text, and it reports no error exactly if the run returned. -/
theorem only_reported_escapes {c : Catalog} {es : List Entry} {ops : List Operation}
    (compiled : Assembly.operations c es = .ok ops)
    (untorn : ∀ op ∈ ops, ∀ a ∈ op.args, a.isUntorn)
    (keep : ∀ op ∈ ops, ∀ t, op.transform = some t → t.Keeps Kind.Admits (·.isUntorn)) (limit : Option Int) :
    (∀ dish : Dish, dish.Proper → ∀ start : Int, 0 ≤ start →
      (∀ start' m', Arises start (fresh ops dish limit) start' m' → Contained start' m') ∧
      ((jumpBound ops).isSome ∨ limit.isSome →
        ((fresh ops dish limit).run start).1 ≠ .unfinished)) ∧
    ∀ (v : Value) (tag : String) (queue : List Publication), Dish.Proper ⟨v, tag⟩ →
      ∃ b s, ((Oven.mk ops limit queue).bake v tag).1 = .ok b ∧ b.output = .text s ∧
        (((fresh ops ⟨v, tag⟩ limit).run 0).1 ≠ .unfinished →
          (b.error = none ↔ ((fresh ops ⟨v, tag⟩ limit).run 0).1.Returned)) := by
  have keeps : ∀ op ∈ ops, op.Keeps Kind.Admits (·.isUntorn) :=
    Assembly.operations_keep compiled keep untorn
  have keeping : ∀ dish : Dish, dish.Proper → (fresh ops dish limit).Keeping Kind.Admits (·.isUntorn) :=
    fun dish proper => ⟨proper, keeps⟩
  constructor
  · intro dish proper start front
    refine ⟨fun start' m' arises => ?_, fun bounded => run_bounded start bounded⟩
    have keeping' : m'.Keeping Kind.Admits (·.isUntorn) := arises.keeping Dish.sense_admits (keeping dish proper)
    exact keeping'.contained (arises.front front)
  · intro v tag queue proper
    have contained := (keeping ⟨v, tag⟩ proper).contained (Int.le_refl 0)
    exact bake_contained (o := ⟨ops, limit, queue⟩) proper contained

def enlist : Transform where
  title := "Enlist"
  name := "Enlist"
  input := "JSON"
  output := "JSON"
  defaults := []
  run v _ := .ok (.list [v])

theorem enlist_keeps : enlist.Keeps Kind.Admits (·.isUntorn) := by
  apply Transform.keeps_of_ok .json .json rfl rfl
  exact fun v args admits => ⟨_, rfl, .list (List.forall_mem_singleton.mpr admits)⟩

def enlisting : Catalog :=
  ⟨enlist :: Catalog.standard.transforms⟩

def enlisted : List Operation :=
  [⟨"Fork", [.text "\n", .text "\n", .bool false], "string", "string", false, false, none⟩,
    ⟨"Enlist", [], "JSON", "JSON", false, false, some enlist⟩,
    ⟨"Merge", [], "string", "string", false, false, none⟩,
    ⟨"Enlist", [], "JSON", "JSON", false, false, some enlist⟩]

/-- The text of a JSON value is enlisted by the tranche of a Fork, and what the Fork makes of it is read as
a JSON value and enlisted again. -/
theorem only_reported_escapes_enlisted :
    Assembly.operations enlisting [⟨.text "Fork", [], false, false⟩, ⟨.text "Enlist", [], false, false⟩,
      ⟨.text "Merge", [], false, false⟩, ⟨.text "Enlist", [], false, false⟩] = .ok enlisted ∧
    (∀ op ∈ enlisted, ∀ a ∈ op.args, a.isUntorn) ∧
    (∀ op ∈ enlisted, ∀ t, op.transform = some t → t.Keeps Kind.Admits (·.isUntorn)) ∧
    Dish.Proper ⟨.list [.int 1, .text "a"], "JSON"⟩ ∧
    Contained 0 (fresh enlisted ⟨.list [.int 1, .text "a"], "JSON"⟩ none) ∧
    ∃ b, ((Oven.mk enlisted none []).bake (.list [.int 1, .text "a"]) "JSON").1 = .ok b ∧
      b.output = .text "[[[1, \"a\"]]]" ∧ b.error = none := by
  have compiled : Assembly.operations enlisting [⟨.text "Fork", [], false, false⟩,
      ⟨.text "Enlist", [], false, false⟩, ⟨.text "Merge", [], false, false⟩, ⟨.text "Enlist", [], false, false⟩] =
      .ok enlisted := rfl
  have untorn : ∀ op ∈ enlisted, ∀ a ∈ op.args, a.isUntorn := by decide
  have keep : ∀ op ∈ enlisted, ∀ t, op.transform = some t → t.Keeps Kind.Admits (·.isUntorn) := by
    intro op mem t handler
    obtain ⟨-, -, known⟩ := Assembly.operations_handled compiled op mem t handler
    rcases List.mem_cons.mp known with rfl | standard
    · exact enlist_keeps
    · exact Catalog.standard_keeps Dish.sense_admits t standard
  have plain : Json.Plain (.list [.int 1, .text "a"]) := by
    apply Json.Plain.list
    exact List.forall_mem_cons.mpr ⟨.int Number.short_one, List.forall_mem_singleton.mpr (.text "a")⟩
  have proper : Dish.Proper ⟨.list [.int 1, .text "a"], "JSON"⟩ :=
    Dish.ofType_of_kind (k := .json) (.inr plain) rfl
  obtain ⟨runs, bakes⟩ := only_reported_escapes compiled untorn keep none
  obtain ⟨contained, finishes⟩ := runs _ proper 0 (Int.le_refl 0)
  obtain ⟨b, s, baked, output, error⟩ := bakes _ _ [] proper
  have returned : ((fresh enlisted ⟨.list [.int 1, .text "a"], "JSON"⟩ none).run 0).1 = .at 4 := by
    decide +kernel
  have text : ((Oven.mk enlisted none []).bake (.list [.int 1, .text "a"]) "JSON").1.toOption.map
      (·.output.plain) = some "[[[1, \"a\"]]]" := by decide +kernel
  have same : s = "[[[1, \"a\"]]]" := by
    rw [baked] at text
    have plain : b.output.plain = _ := Option.some.inj text
    rw [output] at plain
    exact plain
  refine ⟨compiled, untorn, keep, proper, contained 0 _ .outermost, b, baked, ?_, ?_⟩
  · rw [output, same]
  · exact (error (finishes (.inl rfl))).mpr ⟨4, returned⟩

def balk : Transform where
  title := "Balk"
  name := "Balk"
  input := "JSON"
  output := "JSON"
  defaults := []
  run _ _ := .error (.raised "RuntimeError" (Text.Glyph.ofText "balked"))

def balked : List Operation :=
  [⟨"Balk", [], "JSON", "JSON", false, false, some balk⟩]

def escapedHalf : Value :=
  .text "\"\\ud800\""

def moan : Transform where
  title := "Moan"
  name := "Moan"
  input := "string"
  output := "string"
  defaults := []
  run _ _ := .error (.refused [Text.Glyph.ofCode 0xD800])

def moaned : List Operation :=
  [⟨"Moan", [], "string", "string", false, false, some moan⟩]

/-- Halves get into a dish that had none in two ways. What is read from a text can be one: where an operation breaks
that reads its dish as JSON, a JSON value with halves is left. And what a transform refuses is left as a text, with
the halves that its message has. -/
theorem only_reported_escapes_torn :
    (Assembly.operations ⟨[balk]⟩ [⟨.text "Balk", [], false, false⟩] = .ok balked ∧
      (∀ v args out, balk.run v args ≠ .ok out) ∧
      Dish.Proper ⟨escapedHalf, "string"⟩ ∧ escapedHalf.isUntorn ∧
      let ended := (fresh balked ⟨escapedHalf, "string"⟩ none).run 0
      ended.1 = .broken ⟨"Balk", 0, .raised "RuntimeError" (Text.Glyph.ofText "balked")⟩ ∧
      ended.2.dish.tag = "JSON" ∧ ended.2.dish.value.isUntorn = false) ∧
    Assembly.operations ⟨[moan]⟩ [⟨.text "Moan", [], false, false⟩] = .ok moaned ∧
    (∀ v args out, moan.run v args ≠ .ok out) ∧
    Dish.Proper ⟨.text "a", "string"⟩ ∧
    let ended := (fresh moaned ⟨.text "a", "string"⟩ none).run 0
    ended.1 = .at 0 ∧ ended.2.dish.tag = "string" ∧ ended.2.dish.value.isUntorn = false := by
  have balks : ∀ v args out, balk.run v args ≠ .ok out := by
    intro v args out ran
    cases ran
  have moans : ∀ v args out, moan.run v args ≠ .ok out := by
    intro v args out ran
    cases ran
  have escaped : Dish.Proper ⟨escapedHalf, "string"⟩ :=
    Dish.ofType_of_kind (k := .string) (.inr ⟨_, rfl⟩) rfl
  have proper : Dish.Proper ⟨.text "a", "string"⟩ :=
    Dish.ofType_of_kind (k := .string) (.inr ⟨_, rfl⟩) rfl
  constructor
  · refine ⟨rfl, balks, escaped, rfl, ?_⟩
    decide +kernel
  · refine ⟨rfl, moans, proper, ?_⟩
    decide +kernel

end Machine

end Run

end Kitchen

import Kitchen.Definition
import Kitchen.Proofs.Outcome
import Kitchen.Proofs.Value.Fields
import Kitchen.Proofs.Value.Texts

/-!
Definitions that are written and read again. Whatever map a definition was read from, what is written for it
is in a normal form: it is read as a definition again, and written once more it is the same map, key by key.
Only a description that says nothing and is no text comes back as another one, the empty text.
-/
namespace Kitchen

open Value (field? lookup?)

variable {name : String} {v : Value} {es fs : List (Value × Value)} {e : Entry} {d : Definition}

namespace Entry

def Named (e : Entry) : Prop :=
  e.name.isText ∧ e.name.truthy

/-- An entry that has a name is read from what is written for it. -/
theorem ofValue_toValue (named : e.Named) : ofValue e.toValue = .ok e := by
  obtain ⟨name, args, disabled, pauses⟩ := e
  obtain ⟨text, some⟩ := named
  dsimp only at text some
  have set (b : Bool) : (Value.bool b).truthy = b := rfl
  -- A flag that is not written is read as one that is not set.
  cases disabled <;> cases pauses <;>
    simp [ofValue, toValue, flag, Value.field?_cons, Value.field?_nil, set, text, some]

theorem ofValue_named (read : ofValue v = .ok e) : e.Named := by
  unfold ofValue at read
  split at read
  · split at read
    · cases read
    · -- Arguments in a list and arguments in a tuple are taken alike.
      split at read
      any_goals
        split at read
        · next named =>
          cases read
          exact Bool.and_eq_true_iff.mp named
        · cases read
      cases read
  · cases read

theorem mapM_toValue {entries : List Entry} (named : ∀ e ∈ entries, e.Named) :
    (entries.map toValue).mapM ofValue = .ok entries := by
  induction entries with
  | nil => rfl
  | cons e entries ih =>
    obtain ⟨first, rest⟩ := List.forall_mem_cons.mp named
    rw [List.map_cons, List.mapM_cons, ofValue_toValue first, ih rest]
    rfl

theorem mapM_named {vs : List Value} {entries : List Entry} (read : vs.mapM ofValue = .ok entries) :
    ∀ e ∈ entries, e.Named := by
  intro e mem
  obtain ⟨v, -, read⟩ := mapM_ok read e mem
  exact ofValue_named read

end Entry

namespace Definition

-- A definition as documents give it: its version is a text, its operations have names, and what it holds beyond
-- the known fields stands under other keys.
structure Given (d : Definition) : Prop where
  version : d.version.isText
  named : ∀ e ∈ d.entries, e.Named
  extras : ∀ x ∈ d.extras, isExtra x

theorem entriesOf_named {id : Value} {entries : List Entry} (read : entriesOf id v = .ok entries) :
    ∀ e ∈ entries, e.Named := by
  unfold entriesOf at read
  split at read
  · cases read
    exact fun e mem => absurd mem List.not_mem_nil
  · split at read
    · exact Entry.mapM_named read
    · cases read

structure Read (fields : List (Value × Value)) (d : Definition) : Prop where
  id : field? "recipe_id" fields = some d.id
  version : d.version = ((field? "version" fields).getD (.text "1.0")).shown
  description : d.description = (field? "description" fields).getD (.text "")
  input : inputOf d.id ((field? "input_type" fields).getD (.text Kind.string.tag)) = .ok d.input
  entries : entriesOf d.id ((field? "operations" fields).getD .null) = .ok d.entries
  extras : d.extras = fields.filter isExtra

/-- A map is read as a definition exactly if its fields can be read, one by one. -/
theorem ofValue_ok : ofValue (.map es) = .ok d ↔ Read es d := by
  constructor
  · intro read
    simp only [ofValue] at read
    split at read
    · cases read
    · next id found =>
      obtain ⟨entries, all, read⟩ := bind_ok read
      obtain ⟨input, known, read⟩ := bind_ok read
      cases read
      exact ⟨found, rfl, rfl, known, all, rfl⟩
  · intro read
    obtain ⟨id, version, description, input, entries, extras⟩ := d
    obtain ⟨found, rfl, rfl, known, all, rfl⟩ := read
    dsimp only at found known all
    simp only [ofValue, found, all, known]
    rfl

theorem Read.given (read : Read es d) : d.Given where
  version := by
    rw [read.version]
    exact Value.isText_shown _
  named := entriesOf_named read.entries
  extras := by
    intro x mem
    rw [read.extras] at mem
    exact (List.mem_filter.mp mem).2

theorem isExtra_iff {x : Value × Value} : isExtra x ↔ ∀ k ∈ knownKeys, x.1 ≠ .text k := by
  simp only [isExtra, Bool.not_eq_true', List.any_eq_false, Value.same_text, ne_eq]

/-- No known field is among the extras. -/
theorem Given.field_extras (given : d.Given) (known : name ∈ knownKeys) : field? name d.extras = none := by
  apply Value.field?_eq_none.mpr
  intro there
  obtain ⟨x, mem, key⟩ := List.mem_map.mp there
  exact isExtra_iff.mp (given.extras x mem) name known key

def header (d : Definition) : List (Value × Value) :=
  [(.text "recipe_id", d.id), (.text "version", d.version)]
    ++ (if d.description.truthy then [(.text "description", d.description)] else [])
    ++ [(.text "input_type", .text d.input.tag), (.text "operations", d.toConfig)]

theorem fields_eq (d : Definition) : d.fields = d.header ++ d.extras :=
  rfl

/-- What the fields before the extras hold under a name. -/
theorem field?_header (name : String) (d : Definition) : field? name d.header =
    if name = "recipe_id" then some d.id
    else if name = "version" then some d.version
    else if name = "description" ∧ d.description.truthy then some d.description
    else if name = "input_type" then some (.text d.input.tag)
    else if name = "operations" then some d.toConfig
    else none := by
  unfold header
  by_cases told : d.description.truthy
  · simp [told, Value.field?_cons, Value.field?_nil]
  · simp [told, Value.field?_cons, Value.field?_nil]

theorem Given.field? (given : d.Given) (name : String) (known : name ∈ knownKeys) :
    Value.field? name d.fields = Value.field? name d.header := by
  rw [fields_eq, Value.field?_append, given.field_extras known, Option.or_none]

theorem header_known (d : Definition) : ∀ x ∈ d.header, ∃ k ∈ knownKeys, x.1 = .text k := by
  by_cases told : d.description.truthy
  · simp [header, knownKeys, told]
  · simp [header, knownKeys, told]

/-- The extras of a written definition are its own. -/
theorem Given.filter_fields (given : d.Given) : d.fields.filter isExtra = d.extras := by
  -- The fields before the extras stand under known keys, all of them.
  have none : d.header.filter isExtra = [] := by
    apply List.filter_eq_nil_iff.mpr
    intro x mem extra
    obtain ⟨k, known, key⟩ := header_known d x mem
    exact isExtra_iff.mp extra k known key
  rw [fields_eq, List.filter_append, none, List.nil_append]
  exact List.filter_eq_self.mpr given.extras

theorem inputOf_tag (id : Value) (k : Kind) : inputOf id (.text k.tag) = .ok k := by
  cases k <;> rfl

theorem Given.entriesOf (given : d.Given) (id : Value) : entriesOf id d.toConfig = .ok d.entries := by
  unfold Definition.entriesOf toConfig
  cases empty : d.entries with
  | nil => rfl
  | cons e entries =>
    have named := given.named
    rw [empty] at named
    exact Entry.mapM_toValue named

def normal (d : Definition) : Definition :=
  { d with description := if d.description.truthy then d.description else .text "" }

/-- A definition is written as if its description were the empty text when it says nothing. -/
theorem toValue_normal (d : Definition) : d.normal.toValue = d.toValue := by
  have empty : (Value.text "").truthy = false := rfl
  unfold toValue fields normal toConfig
  by_cases told : d.description.truthy
  · simp only [told, if_true]
  · simp only [told, if_false, empty, Bool.false_eq_true]

theorem normal_of_text (text : d.description.isText) : d.normal = d := by
  obtain ⟨id, version, description, input, entries, extras⟩ := d
  cases description with
  | text s =>
    by_cases empty : s = ""
    · simp [normal, Value.truthy, empty]
    · simp [normal, Value.truthy, empty]
  | torn t => rfl
  | _ => cases text

theorem Given.read_fields (given : d.Given) : Read d.fields d.normal where
  id := by simp [given.field? "recipe_id" (by decide), field?_header, normal]
  version := by
    simp [given.field? "version" (by decide), field?_header, normal, Value.shown_of_isText given.version]
  description := by
    rw [given.field? "description" (by decide), field?_header]
    by_cases told : d.description.truthy
    · simp [normal, told]
    · simp [normal, told]
  input := by
    simp [given.field? "input_type" (by decide), field?_header, normal, inputOf_tag]
  entries := by
    simp [given.field? "operations" (by decide), field?_header, normal, given.entriesOf]
  extras := given.filter_fields.symm

theorem Given.ofValue_toValue (given : d.Given) : ofValue d.toValue = .ok d.normal :=
  ofValue_ok.mpr given.read_fields

theorem Given.ofConfig_toConfig (given : d.Given) (id : Value) :
    ofConfig id d.toConfig = .ok ⟨id, .text "1.0", .text "", .string, d.entries, []⟩ := by
  simp only [ofConfig, toConfig, Entry.mapM_toValue given.named]
  rfl

/-- Whatever map a definition was read from, what is written for it is read as a definition again, and that one
is written as the same map, with its keys in the same order. It is the same definition if the description is
a text. The operations that are written as a config are read from it as they were. -/
theorem written_normally (read : ofValue (.map es) = .ok d) :
    (∃ d', ofValue d.toValue = .ok d' ∧ d'.toValue = d.toValue ∧ (d.description.isText → d' = d)) ∧
      ∀ id, ∃ c, ofConfig id d.toConfig = .ok c ∧ c.entries = d.entries := by
  have given : d.Given := (ofValue_ok.mp read).given
  constructor
  · exact ⟨d.normal, given.ofValue_toValue, toValue_normal d, fun text => normal_of_text text⟩
  · intro id
    exact ⟨_, given.ofConfig_toConfig id, rfl⟩

-- A document with a number for its version, a flag that is a number, and a key that is no text.
def notice : List (Value × Value) :=
  [(.int 7, .text "seven"), (.text "version", .int 2), (.text "description", .text "backwards"),
    (.text "recipe_id", .text "turn"),
    (.text "operations", .list [.map [(.text "op", .text "Reverse"), (.text "disabled", .int 1)]])]

def noticed : Definition :=
  ⟨.text "turn", .text "2", .text "backwards", .string, [⟨.text "Reverse", [], true, false⟩], [(.int 7, .text "seven")]⟩

/-- It is written in other words, with its keys in another order, and comes back as the same definition. -/
theorem written_normally_notice : ofValue (.map notice) = .ok noticed ∧
    ofValue noticed.toValue = .ok noticed ∧
    ∃ c, ofConfig (.text "inline") noticed.toConfig = .ok c ∧ c.entries = noticed.entries := by
  have read : ofValue (.map notice) = .ok noticed := by with_unfolding_all rfl
  obtain ⟨⟨d, again, -, same⟩, config⟩ := written_normally read
  have text : noticed.description.isText := rfl
  rw [same text] at again
  exact ⟨read, again, config (.text "inline")⟩

end Definition

end Kitchen

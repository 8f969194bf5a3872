import Kitchen.Fingerprint
import Kitchen.Proofs.Definition.Normal
import Kitchen.Proofs.Dish.Turning
import Kitchen.Proofs.Json.Ordered
import Kitchen.Proofs.Json.Orderly

/-!
What the digest of a definition is taken of. Two definitions that were read from JSON documents without floats have
one canonical text exactly if they agree in every field, up to the order of keys at any depth: no field that is left
out and no extra that is mixed in makes two of them alike, and no order of keys makes two of them differ.
-/
namespace Kitchen

open Value (lookup? field?)
open Json (Exact Keyed Reordered)

variable {name : String} {v : Value} {es fs : List (Value × Value)} {a b d : Definition}

theorem Value.field?_exact (exact : Exact (.map es)) (found : field? name es = some v) : Exact v :=
  ((Json.exact_map.mp exact).2 _ (Value.mem_of_field? found)).2

theorem Value.getD_exact {usual : Value} (exact : Exact (.map es)) (exact' : Exact usual) (name : String) :
    Exact ((field? name es).getD usual) := by
  cases found : field? name es with
  | none => exact exact'
  | some v => exact Value.field?_exact exact found

namespace Entry

variable {e f : Entry}

-- Entries that differ in the order of keys in their arguments at most.
structure Agrees (e f : Entry) : Prop where
  name : e.name = f.name
  args : List.Forall₂ Reordered e.args f.args
  disabled : e.disabled = f.disabled
  pauses : e.pauses = f.pauses

def fields (e : Entry) : List (Value × Value) :=
  [(.text "op", e.name), (.text "args", .list e.args)]
    ++ (if e.disabled then [(.text "disabled", .bool true)] else [])
    ++ (if e.pauses then [(.text "breakpoint", .bool true)] else [])

theorem toValue_eq (e : Entry) : e.toValue = .map e.fields :=
  rfl

theorem fields_keyed (e : Entry) : Keyed e.fields := by
  obtain ⟨name, args, disabled, pauses⟩ := e
  cases disabled <;> cases pauses <;> simp [Json.keyed_iff, fields, Value.isText]

theorem field?_fields (name : String) (e : Entry) : field? name e.fields =
    if name = "op" then some e.name
    else if name = "args" then some (.list e.args)
    else if name = "disabled" ∧ e.disabled then some (.bool true)
    else if name = "breakpoint" ∧ e.pauses then some (.bool true)
    else none := by
  obtain ⟨name, args, disabled, pauses⟩ := e
  cases disabled <;> cases pauses <;> simp [fields, Value.field?_cons, Value.field?_nil]

theorem fields_named (e : Entry) : ∀ x ∈ e.fields, ∃ name, x.1 = .text name := by
  obtain ⟨name, args, disabled, pauses⟩ := e
  cases disabled <;> cases pauses <;> simp [fields]

structure Exactly (e : Entry) : Prop where
  name : Exact e.name
  args : ∀ x ∈ e.args, Exact x

theorem exact_toValue (exactly : e.Exactly) : Exact e.toValue := by
  rw [toValue_eq]
  apply Json.exact_map.mpr ⟨e.fields_keyed, ?_⟩
  obtain ⟨name, args, disabled, pauses⟩ := e
  obtain ⟨exact_name, exact_args⟩ := exactly
  have list : Exact (.list args) := .list exact_args
  cases disabled <;> cases pauses <;> simp [fields, exact_name, list, Exact.text, Exact.bool]

/-- A flag that is not written tells as much as one that is. -/
theorem reordered_flag {p q : Bool} :
    Option.Rel Reordered (if p then some (.bool true) else none) (if q then some (.bool true) else none) ↔
      p = q := by
  constructor
  · intro same
    cases p <;> cases q <;> first | rfl | cases same
  · rintro rfl
    cases p
    · exact .none
    · exact .some (.refl _)

theorem reordered_toValue (named : e.Named) : Reordered e.toValue f.toValue ↔ e.Agrees f := by
  rw [toValue_eq, toValue_eq, Json.reordered_fields e.fields_keyed f.fields_keyed e.fields_named f.fields_named]
  simp only [field?_fields]
  constructor
  · intro alike
    have op : e.name = f.name := by simpa [Json.reordered_isText named.1] using alike "op"
    have args : List.Forall₂ Reordered e.args f.args := by
      simpa [Json.reordered_list] using alike "args"
    have disabled : e.disabled = f.disabled := by simpa [reordered_flag] using alike "disabled"
    have pauses : e.pauses = f.pauses := by simpa [reordered_flag] using alike "breakpoint"
    exact ⟨op, args, disabled, pauses⟩
  · rintro ⟨same, args, disabled, pauses⟩ name
    rw [same, disabled, pauses]
    -- Both have the same fields; only arguments can differ in the order of keys.
    split_ifs
    · exact .some (.refl _)
    · exact .some (Json.reordered_list.mpr args)
    · exact .some (.refl _)
    · exact .some (.refl _)
    · exact .none

/-- An entry that was read from an exact value has exact parts. -/
theorem exactly (exact : Exact v) (read : ofValue v = .ok e) : e.Exactly := by
  unfold ofValue at read
  split at read
  · next fields =>
    split at read
    · cases read
    · next name found =>
      have given := Value.getD_exact exact (.list (List.forall_mem_nil _)) "args"
      -- No tuple is exact, so the arguments stand in a list.
      split at read
      · next args list =>
        rw [list] at given
        split at read
        · cases read
          exact ⟨Value.field?_exact exact found, Json.exact_list.mp given⟩
        · cases read
      · next args tuple =>
        rw [tuple] at given
        cases given
      · cases read
  · cases read

end Entry

namespace Definition

-- Definitions that differ in the order of keys at most, at any depth.
structure Agrees (a b : Definition) : Prop where
  id : Reordered a.id b.id
  version : a.version = b.version
  description : a.description = b.description
  input : a.input = b.input
  entries : List.Forall₂ Entry.Agrees a.entries b.entries
  extras : Reordered (.map a.extras) (.map b.extras)

theorem exact_entriesOf {id : Value} {entries : List Entry} (exact : Exact v)
    (read : entriesOf id v = .ok entries) : ∀ e ∈ entries, e.Exactly := by
  unfold entriesOf at read
  split at read
  · cases read
    exact List.forall_mem_nil _
  · split at read
    · intro e mem
      obtain ⟨x, there, read⟩ := mapM_ok read e mem
      exact Entry.exactly (Json.exact_list.mp exact x there) read
    · cases read

theorem exact_toConfig (entries : ∀ e ∈ d.entries, e.Exactly) : Exact d.toConfig := by
  apply Exact.list
  intro v mem
  obtain ⟨e, there, rfl⟩ := List.mem_map.mp mem
  exact Entry.exact_toValue (entries e there)

theorem reordered_toConfig (given : a.Given) :
    Reordered a.toConfig b.toConfig ↔ List.Forall₂ Entry.Agrees a.entries b.entries := by
  unfold toConfig
  rw [Json.reordered_list, List.forall₂_map_left_iff, List.forall₂_map_right_iff,
    List.forall₂_iff_zip, List.forall₂_iff_zip]
  refine and_congr_right fun _ => ?_
  constructor
  · intro alike e f mem
    exact (Entry.reordered_toValue (given.named e (List.of_mem_zip mem).1)).mp (alike mem)
  · intro agree e f mem
    exact (Entry.reordered_toValue (given.named e (List.of_mem_zip mem).1)).mpr (agree mem)

theorem header_keyed (d : Definition) : Keyed d.header := by
  by_cases told : d.description.truthy
  · simp [Json.keyed_iff, header, told, Value.isText]
  · simp [Json.keyed_iff, header, told, Value.isText]

/-- The extras stand under other keys than the fields before them. -/
theorem Given.fields_keyed (given : d.Given) (keyed : Keyed d.extras) : Keyed d.fields := by
  refine ⟨List.forall_mem_append.mpr ⟨d.header_keyed.texts, keyed.texts⟩, ?_⟩
  rw [fields_eq, List.map_append, List.nodup_append]
  refine ⟨d.header_keyed.distinct, keyed.distinct, ?_⟩
  rintro k here _ there rfl
  obtain ⟨x, mem, rfl⟩ := List.mem_map.mp here
  obtain ⟨y, mem', key⟩ := List.mem_map.mp there
  obtain ⟨name, known, text⟩ := header_known d x mem
  exact isExtra_iff.mp (given.extras y mem') name known (key.trans text)

/-- A definition that was read from exact fields is written with exact fields. -/
theorem Read.exact (read : Read es d) (exact : Exact (.map es)) : Exact d.toValue := by
  have id : Exact d.id := Value.field?_exact exact read.id
  have description : Exact d.description := by
    rw [read.description]
    exact Value.getD_exact exact (.text "") "description"
  have version : Exact d.version := by
    rw [read.version]
    exact (Value.getD_exact exact (.text "1.0") "version").shown
  have config : Exact d.toConfig :=
    exact_toConfig (exact_entriesOf (Value.getD_exact exact .null "operations") read.entries)
  have header : ∀ x ∈ d.header, Exact x.1 ∧ Exact x.2 := by
    by_cases told : d.description.truthy
    · simp [Definition.header, told, id, version, description, config, Exact.text]
    · simp [Definition.header, told, id, version, config, Exact.text]
  have extras : d.extras.Sublist es := by
    rw [read.extras]
    exact List.filter_sublist
  obtain ⟨keyed, values⟩ := Json.exact_map.mp exact
  have keyed_extras : Keyed d.extras :=
    ⟨fun x mem => keyed.texts x (extras.subset mem), keyed.distinct.sublist (extras.map _)⟩
  apply Json.exact_map.mpr ⟨read.given.fields_keyed keyed_extras, ?_⟩
  exact List.forall_mem_append.mpr ⟨header, fun x mem => values x (extras.subset mem)⟩

/-- A text that is left out if it says nothing is still told apart from others. -/
theorem reordered_told {v w : Value} (text : v.isText) (text' : w.isText) :
    Option.Rel Reordered (if v.truthy then some v else none) (if w.truthy then some w else none) ↔
      v = w := by
  have empty : ∀ {u : Value}, u.isText → ¬u.truthy → u = .text "" := by
    intro u text silent
    cases u with
    | text s =>
      obtain rfl : s = "" := by simpa [Value.truthy] using silent
      rfl
    | torn t => exact absurd rfl silent
    | _ => cases text
  constructor
  · intro same
    by_cases told : v.truthy <;> by_cases told' : w.truthy
    · simpa [told, told', Json.reordered_isText text] using same
    · simp [told, told'] at same
    · simp [told, told'] at same
    · exact (empty text told).trans (empty text' told').symm
  · rintro rfl
    split
    · exact .some (.refl _)
    · exact .none

/-- What stands under other keys is among the extras. -/
theorem lookup?_other {k : Value} (d : Definition) (key : k.isText) (other : ∀ name ∈ knownKeys, k ≠ .text name) :
    lookup? k d.fields = lookup? k d.extras := by
  have none : lookup? k d.header = none := by
    apply (Value.lookup?_eq_none key).mpr
    intro there
    obtain ⟨x, mem, same⟩ := List.mem_map.mp there
    obtain ⟨name, known, text⟩ := header_known d x mem
    exact other name known (same.symm.trans text)
  rw [fields_eq, Value.lookup?_append, none, Option.none_or]

theorem extras_keyed (keyed : Keyed d.fields) : Keyed d.extras := by
  obtain ⟨texts, distinct⟩ := keyed
  rw [fields_eq] at texts distinct
  rw [List.map_append, List.nodup_append] at distinct
  exact ⟨(List.forall_mem_append.mp texts).2, distinct.2.1⟩

/-- Definitions are written alike, up to the order of keys, if they hold the same under each known name and the same
extras. -/
theorem reordered_iff (given : a.Given) (given' : b.Given) (exact : Exact a.toValue)
    (exact' : Exact b.toValue) : Reordered a.toValue b.toValue ↔
      (∀ name ∈ knownKeys, Option.Rel Reordered (field? name a.header) (field? name b.header)) ∧
        Reordered (.map a.extras) (.map b.extras) := by
  have keyed : Keyed a.fields := (Json.exact_map.mp exact).1
  have keyed' : Keyed b.fields := (Json.exact_map.mp exact').1
  unfold toValue
  rw [Json.reordered_entries keyed keyed',
    Json.reordered_entries (extras_keyed keyed) (extras_keyed keyed')]
  -- A name is known, and then no extra stands under it, or only an extra can stand under it.
  constructor
  · intro alike
    refine ⟨fun name known => ?_, fun k key => ?_⟩
    · rw [← given.field? name known, ← given'.field? name known]
      exact alike (.text name) rfl
    · by_cases known : ∃ name ∈ knownKeys, k = .text name
      · obtain ⟨name, known, rfl⟩ := known
        have missing : ∀ {d : Definition}, d.Given → lookup? (.text name) d.extras = none :=
          fun given => given.field_extras known
        rw [missing given, missing given']
        exact .none
      · have other : ∀ name ∈ knownKeys, k ≠ .text name := fun name mem same => known ⟨name, mem, same⟩
        rw [← lookup?_other a key other, ← lookup?_other b key other]
        exact alike k key
  · rintro ⟨header, extras⟩ k key
    by_cases known : ∃ name ∈ knownKeys, k = .text name
    · obtain ⟨name, known, rfl⟩ := known
      have first := given.field? name known
      have second := given'.field? name known
      unfold Value.field? at first second
      rw [first, second]
      exact header name known
    · have other : ∀ name ∈ knownKeys, k ≠ .text name := fun name mem same => known ⟨name, mem, same⟩
      rw [lookup?_other a key other, lookup?_other b key other]
      exact extras k key

theorem agrees_iff (given : a.Given) (given' : b.Given) (exact : Exact a.toValue)
    (exact' : Exact b.toValue) (text : a.description.isText) (text' : b.description.isText) :
    Reordered a.toValue b.toValue ↔ a.Agrees b := by
  rw [reordered_iff given given' exact exact']
  simp only [field?_header]
  constructor
  · rintro ⟨alike, extras⟩
    have id : Reordered a.id b.id := by simpa using alike "recipe_id" (by decide)
    have version : a.version = b.version := by
      simpa [Json.reordered_isText given.version] using alike "version" (by decide)
    have description : a.description = b.description := by
      simpa [reordered_told text text'] using alike "description" (by decide)
    have input : a.input.tag = b.input.tag := by
      have same := alike "input_type" (by decide)
      simpa [Json.reordered_isText (v := .text a.input.tag) rfl] using same
    have entries : List.Forall₂ Entry.Agrees a.entries b.entries := by
      simpa [reordered_toConfig given] using alike "operations" (by decide)
    exact ⟨id, version, description, tag_injective input, entries, extras⟩
  · rintro ⟨id, version, description, input, entries, extras⟩
    refine ⟨fun name _ => ?_, extras⟩
    -- One case for each field, and the last for names that none of them has.
    rw [version, description, input]
    split_ifs
    · exact .some id
    · exact .some (.refl _)
    · exact .some (.refl _)
    · exact .some (.refl _)
    · exact .some ((reordered_toConfig given).mpr entries)
    · exact .none

/-- The canonical text identifies a definition. For definitions that were read from JSON documents without floats and
have texts for descriptions, the digests are taken of texts that are equal exactly if the definitions agree in
every field, up to the order of keys at any depth. -/
theorem canonicalText_identifies (exact : Exact (.map es)) (exact' : Exact (.map fs))
    (read : ofValue (.map es) = .ok a) (read' : ofValue (.map fs) = .ok b)
    (text : a.description.isText) (text' : b.description.isText) :
    ∃ s t, a.canonicalText = .ok s ∧ b.canonicalText = .ok t ∧ (s = t ↔ a.Agrees b) ∧
      a.fingerprint = .ok (Digest.hex (Text.Utf8.encode s)) ∧
      b.fingerprint = .ok (Digest.hex (Text.Utf8.encode t)) := by
  have fields := ofValue_ok.mp read
  have fields' := ofValue_ok.mp read'
  have written := fields.exact exact
  have written' := fields'.exact exact'
  obtain ⟨s, t, first, second, same⟩ := Json.canonical_eq_iff written written'
  have canonical : ∀ {d : Definition} {cs}, Exact d.toValue →
      Json.chars Json.canonical d.toValue = .ok cs → d.canonicalText = .ok cs := by
    intro d cs exact text
    rw [canonicalText, if_pos exact.plain.orderly.showable, text]
  have hash : ∀ {d : Definition} {cs}, d.canonicalText = .ok cs →
      d.fingerprint = .ok (Digest.hex (Text.Utf8.encode cs)) := by
    intro d cs canonical
    rw [fingerprint, canonical]
    rfl
  have first := canonical written first
  have second := canonical written' second
  refine ⟨s, t, first, second, ?_, hash first, hash second⟩
  exact same.trans (agrees_iff fields.given fields'.given written written' text text')

def sheet : List (Value × Value) :=
  [(.text "recipe_id", .text "greet"), (.text "version", .int 2), (.text "owner", .text "bakery"),
    (.text "operations", .list [.map [(.text "op", .text "Replace"),
      (.text "args", .list [.map [(.text "option", .text "Regex"), (.text "string", .text "a")]]),
      (.text "disabled", .bool false)]])]

def shuffled : List (Value × Value) :=
  [(.text "operations", .list [.map [
      (.text "args", .list [.map [(.text "string", .text "a"), (.text "option", .text "Regex")]]),
      (.text "op", .text "Replace")]]),
    (.text "owner", .text "bakery"), (.text "version", .text "2"), (.text "recipe_id", .text "greet")]

-- The definition that is read from such a document, with the fields of its argument.
def greeting (argument : List (Value × Value)) : Definition :=
  ⟨.text "greet", .text "2", .text "", .string, [⟨.text "Replace", [.map argument], false, false⟩],
    [(.text "owner", .text "bakery")]⟩

/-- Both documents have one canonical text, and one digest. -/
theorem canonicalText_identifies_shuffled :
    ∃ a b, ofValue (.map sheet) = .ok a ∧ ofValue (.map shuffled) = .ok b ∧ a.toConfig ≠ b.toConfig ∧
      a.Agrees b ∧ a.canonicalText = b.canonicalText ∧ a.fingerprint = b.fingerprint := by
  let regex := (Value.text "option", Value.text "Regex")
  let letter := (Value.text "string", Value.text "a")
  have read : ofValue (.map sheet) = .ok (greeting [regex, letter]) := by with_unfolding_all rfl
  have read' : ofValue (.map shuffled) = .ok (greeting [letter, regex]) := by with_unfolding_all rfl
  have short : Number.Short 2 := Number.short_of_lt (show 2 < Number.tenTo 1 by decide) (by decide)
  have exact : Exact (.map sheet) := by
    simp [sheet, Json.exact_map, Json.keyed_iff, Json.exact_list, Exact.text, Exact.bool, Exact.int short, Value.isText]
  have exact' : Exact (.map shuffled) := by
    simp [shuffled, Json.exact_map, Json.keyed_iff, Json.exact_list, Exact.text, Value.isText]
  have argument : Reordered (.map [regex, letter]) (.map [letter, regex]) :=
    Json.reordered_perm (by simp [regex, letter]) (.swap _ _ _)
  have agrees : (greeting [regex, letter]).Agrees (greeting [letter, regex]) := by
    refine ⟨.refl _, rfl, rfl, rfl, .cons ?_ .nil, .refl _⟩
    exact ⟨rfl, .cons argument .nil, rfl, rfl⟩
  obtain ⟨s, t, first, second, same, digest, digest'⟩ :=
    canonicalText_identifies exact exact' read read' rfl rfl
  obtain rfl := same.mpr agrees
  refine ⟨_, _, read, read', ?_, agrees, first.trans second.symm, digest.trans digest'.symm⟩
  simp [greeting, toConfig, Entry.toValue, regex, letter]

end Definition

end Kitchen

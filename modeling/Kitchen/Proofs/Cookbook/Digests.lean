import Kitchen.Fingerprint
import Kitchen.Proofs.Cookbook.Requests
import Kitchen.Proofs.Definition.Canonical
import Kitchen.Proofs.Json.Orderly
import Kitchen.Proofs.Storage.Contents

/-!
Which definitions have a digest. A definition that was loaded has one exactly if its description, the arguments of
its operations and its extras can be written with their keys in order. Whatever a JSON file holds can be; a YAML
file also holds dates, bytes, sets and keys of several kinds, which load and have no digest.
-/
namespace Kitchen

open Json (Alike Orderly)
open Value (field?)

variable {v : Value} {es : List (Value × Value)} {d : Definition}

namespace Json

/-- Where one key is a text, all keys that can be put in order with it are. -/
theorem Alike.texts_of {ks : List Value} {s : String} (alike : Alike ks) (mem : .text s ∈ ks) :
    ∀ k ∈ ks, k.isText := by
  cases alike with
  | texts all => exact all
  | numbers all => nomatch all _ mem
  | null => cases List.mem_singleton.mp mem

theorem orderly_texts (texts : ∀ e ∈ es, e.1.isText) : Orderly (.map es) ↔ ∀ e ∈ es, Orderly e.2 := by
  have alike : Alike (es.map (·.1)) := .texts (by simpa using fun k v mem => texts (k, v) mem)
  rw [orderly_map]
  exact and_iff_right alike

theorem orderly_isText (text : v.isText) : Orderly v := by
  cases v with
  | text s => exact .text s
  | torn t => exact .torn t
  | _ => cases text

theorem Orderly.field (orderly : Orderly (.map es)) {name : String} (found : field? name es = some v) :
    Orderly v :=
  (orderly_map.mp orderly).2 _ (Value.mem_of_field? found)

theorem Orderly.getD (orderly : Orderly (.map es)) {usual : Value} (usually : Orderly usual) (name : String) :
    Orderly ((field? name es).getD usual) := by
  cases found : field? name es with
  | none => exact usually
  | some v => exact orderly.field found

end Json

namespace Entry

variable {e : Entry}

theorem orderly_toValue (named : e.Named) : Orderly e.toValue ↔ ∀ x ∈ e.args, Orderly x := by
  have name : Orderly e.name := Json.orderly_isText named.1
  rw [toValue_eq, Json.orderly_texts e.fields_keyed.texts]
  obtain ⟨op, args, disabled, pauses⟩ := e
  cases disabled <;> cases pauses <;> simp [fields, Json.orderly_list, name, Orderly.bool]

/-- An entry that was read from an orderly value has orderly arguments. -/
theorem orderly_args (orderly : Orderly v) (read : ofValue v = .ok e) : ∀ x ∈ e.args, Orderly x := by
  unfold ofValue at read
  split at read
  · next fields =>
    split at read
    · cases read
    · have given := orderly.getD (.list (List.forall_mem_nil _)) "args"
      -- The arguments stand in a list or in a tuple, and are all of its items.
      split at read
      · next args list =>
        rw [list] at given
        split at read
        · cases read
          exact Json.orderly_list.mp given
        · cases read
      · next args tuple =>
        rw [tuple] at given
        split at read
        · cases read
          cases given with
          | tuple items => exact items
        · cases read
      · cases read
  · cases read

end Entry

namespace Definition

-- Everything in a definition that a digest goes by can be written, with its keys in order.
structure Digestible (d : Definition) : Prop where
  description : d.description.truthy → Orderly d.description
  args : ∀ e ∈ d.entries, ∀ x ∈ e.args, Orderly x
  extras : ∀ x ∈ d.extras, x.1.isText ∧ Orderly x.2

theorem orderly_toConfig (given : d.Given) :
    Orderly d.toConfig ↔ ∀ e ∈ d.entries, ∀ x ∈ e.args, Orderly x := by
  simp only [toConfig, Json.orderly_list, List.forall_mem_map]
  exact forall₂_congr fun e mem => Entry.orderly_toValue (given.named e mem)

theorem orderly_toValue (text : d.id.isText) (given : d.Given) : Orderly d.toValue ↔ d.Digestible := by
  have name : Orderly d.id := Json.orderly_isText text
  have version : Orderly d.version := Json.orderly_isText given.version
  have header : (∀ x ∈ d.header, Orderly x.2) ↔
      (d.description.truthy → Orderly d.description) ∧ Orderly d.toConfig := by
    by_cases told : d.description.truthy
    · simp [Definition.header, told, name, version, Orderly.text]
    · simp [Definition.header, told, name, version, Orderly.text]
  unfold toValue
  constructor
  · intro orderly
    obtain ⟨alike, values⟩ := Json.orderly_map.mp orderly
    -- The version stands under a text, so all extras do.
    have texts := alike.texts_of (s := "version") (by simp [fields])
    rw [fields_eq] at texts values
    obtain ⟨described, config⟩ := header.mp fun x mem => values x (List.mem_append_left _ mem)
    refine ⟨described, (orderly_toConfig given).mp config, fun x mem => ⟨?_, values x (List.mem_append_right _ mem)⟩⟩
    exact texts x.1 (List.mem_map_of_mem (List.mem_append_right _ mem))
  · intro digestible
    have first := header.mpr ⟨digestible.description, (orderly_toConfig given).mpr digestible.args⟩
    have texts : ∀ x ∈ d.fields, x.1.isText := by
      intro x mem
      rcases List.mem_append.mp mem with known | extra
      · exact d.header_keyed.texts x known
      · exact (digestible.extras x extra).1
    rw [Json.orderly_texts texts]
    intro x mem
    rcases List.mem_append.mp mem with known | extra
    · exact first x known
    · exact (digestible.extras x extra).2

theorem fingerprint_ok_iff (text : d.id.isText) (given : d.Given) :
    (∃ digest, d.fingerprint = .ok digest) ↔ d.Digestible := by
  rw [← orderly_toValue text given, ← Json.canonical_ok_iff]
  unfold fingerprint canonicalText
  by_cases showable : d.toValue.isShowable
  · cases Json.chars Json.canonical d.toValue <;> simp [Except.map, showable]
  · simp [Except.map, showable]

theorem orderly_entriesOf {id : Value} {entries : List Entry} (orderly : Orderly v)
    (read : entriesOf id v = .ok entries) : ∀ e ∈ entries, ∀ x ∈ e.args, Orderly x := by
  unfold entriesOf at read
  split at read
  · cases read
    exact List.forall_mem_nil _
  · split at read
    · next xs =>
      intro e mem
      obtain ⟨x, there, made⟩ := mapM_ok read e mem
      exact Entry.orderly_args (Json.orderly_list.mp orderly x there) made
    · cases read

/-- A definition that was read from an orderly document has a digest. -/
theorem Read.digestible (read : Read es d) (orderly : Orderly (.map es)) : d.Digestible where
  description := by
    intro _
    rw [read.description]
    exact orderly.getD (.text "") "description"
  args := orderly_entriesOf (orderly.getD .null "operations") read.entries
  extras := by
    obtain ⟨alike, values⟩ := Json.orderly_map.mp orderly
    have named : .text "recipe_id" ∈ es.map (·.1) := List.mem_map_of_mem (Value.mem_of_field? read.id)
    intro x mem
    rw [read.extras] at mem
    have there := List.mem_of_mem_filter mem
    exact ⟨alike.texts_of named x.1 (List.mem_map_of_mem there), values x there⟩

end Definition

namespace Cookbook

open Storage (Path Tree)

variable {b b' : Cookbook} {t : Tree} {r : Request} {id : String} {version : Option String} {p : Path}

/-- What is read for an id is a definition from a document, that has a text for its id. -/
theorem read_named (read : b.read t id = .ok d) : d.id.isText ∧ d.Given := by
  unfold Cookbook.read at read
  obtain ⟨found, -, read⟩ := bind_ok read
  cases found with
  | none => cases read
  | some p =>
    obtain ⟨v, -, read⟩ := bind_ok read
    obtain ⟨d', defined, read⟩ := bind_ok read
    split at read
    · next same =>
      cases read
      constructor
      · generalize d.id = key at same ⊢
        cases key with
        | text s => rfl
        | _ => simp [Value.same] at same
      · cases v with
        | map es => exact (Definition.ofValue_ok.mp (mapError_ok defined)).given
        | _ => cases defined
    · cases read

def Stems (b : Cookbook) : Prop :=
  ∀ id d, b.known.lookup id = some d → ∃ t, b.read t id = .ok d

theorem Stems.ask (stems : b.Stems) (t : Tree) (r : Request) : (b.ask t r).2.Stems := by
  intro id d known
  have same : ∀ t', (b.ask t r).2.read t' id = b.read t' id := fun t' => read_congr (ask_folder b t r) t' id
  simp only [same]
  rcases ask_kept known with read | old
  · exact ⟨t, read⟩
  · exact stems id d old

theorem Stems.after (stems : b.Stems) (history : List (Tree × Request)) : (b.after history).Stems := by
  induction history generalizing b with
  | nil => exact stems
  | cons first rest ih => exact ih (stems.ask first.1 first.2)

/-- A request is answered with what was read from files, now or before. -/
theorem Stems.answered (stems : b.Stems) (answered : (b.ask t r).1 = .ok d) :
    ∃ t, b.read t r.id = .ok d := by
  by_cases consults : b.Consults r
  · rw [ask_eq_verdict consults] at answered
    exact ⟨t, verdict_read answered⟩
  · obtain ⟨unversioned, known⟩ := Classical.not_imp.mp consults
    obtain ⟨d', known⟩ := Option.ne_none_iff_exists'.mp known
    rw [ask_known unversioned known] at answered
    cases answered
    exact stems r.id d known

/-- What stands in a JSON file can be written again. -/
theorem orderly_json (suffix : String.ofList (Text.lower p.suffix.toList) = ".json")
    (held : valueIn t p = .ok v) : Orderly v := by
  unfold valueIn at held
  simp only [suffix] at held
  obtain ⟨cs, -, held⟩ := bind_ok held
  have read : Json.readChars (String.ofList cs).toList = .ok v := mapError_ok (mapError_ok held)
  exact (Json.readChars_plain read).orderly

/-- A definition that was loaded, from its file or from what a cookbook has kept of earlier requests, has a digest
exactly if what the digest goes by can be written with its keys in order. One that is loaded from a JSON file has
one in any case. -/
theorem fingerprint_loaded (folder : Path) (history : List (Tree × Request)) (t : Tree)
    (loaded : ((opened folder).after history).load t id version = .ok (d, b)) :
    ((∃ digest, d.fingerprint = .ok digest) ↔ d.Digestible) ∧
      ∀ t' p v, String.ofList (Text.lower p.suffix.toList) = ".json" → valueIn t' p = .ok v →
        Definition.ofValue v = .ok d → ∃ digest, d.fingerprint = .ok digest := by
  have answered : (((opened folder).after history).ask t ⟨id, version⟩).1 = .ok d := by
    simp only [ask, loaded]
  have stems : (opened folder).Stems := by
    intro id d kept
    cases kept
  obtain ⟨t₀, read⟩ := (stems.after history).answered answered
  obtain ⟨named, given⟩ := read_named read
  have digest := Definition.fingerprint_ok_iff named given
  refine ⟨digest, fun t' p v suffix held defined => digest.mpr ?_⟩
  have orderly := orderly_json suffix held
  cases v with
  | map es => exact (Definition.ofValue_ok.mp defined).digestible orderly
  | _ => cases defined

/-- The definition in the folder of one file. -/
theorem fingerprint_loaded_stocked : ∃ d b digest,
    ((opened shelf).after []).load stocked "tea" none = .ok (d, b) ∧ d.fingerprint = .ok digest := by
  have found : (((opened shelf).after []).load stocked "tea" none).toOption.isSome := by decide +kernel
  cases loaded : ((opened shelf).after []).load stocked "tea" none with
  | error f =>
    rw [loaded] at found
    cases found
  | ok answer =>
    obtain ⟨d, b⟩ := answer
    obtain ⟨digest, -⟩ := fingerprint_loaded shelf [] stocked loaded
    have plain : (((opened shelf).after []).load stocked "tea" none).toOption.any fun answer =>
        !answer.1.description.truthy && answer.1.entries.isEmpty && answer.1.extras.isEmpty := by
      decide +kernel
    rw [loaded] at plain
    simp only [Except.toOption, Option.any_some, Bool.and_eq_true, Bool.not_eq_true', List.isEmpty_iff] at plain
    obtain ⟨⟨untold, entries⟩, extras⟩ := plain
    have digestible : d.Digestible := by
      constructor
      · simp [untold]
      · simp [entries]
      · simp [extras]
    obtain ⟨text, written⟩ := digest.mpr digestible
    exact ⟨d, b, text, rfl, written⟩

def datedText : String := "recipe_id: tea\ncreated: 2024-01-01\n"

def dated : Tree :=
  ⟨[(shelf, .folder), (⟨0, ["shelf", "tea.yaml"]⟩, .file (Text.Utf8.encode datedText.toList))]⟩

def datedFields : List (Value × Value) :=
  [(.text "recipe_id", .text "tea"), (.text "created", .date ⟨2024, 1, 1⟩)]

def datedTea : Definition :=
  ⟨.text "tea", .text "1.0", .text "", .string, [], [(.text "created", .date ⟨2024, 1, 1⟩)]⟩

def isDated : Yaml.Node → Bool
  | .map .map [(.scalar .str "recipe_id", .scalar .str "tea"),
      (.scalar .str "created", .scalar .timestamp "2024-01-01")] => true
  | _ => false

theorem isDated_value {n : Yaml.Node} (dated : isDated n) : n.value = .ok (.map datedFields) := by
  unfold isDated at dated
  split at dated
  · have day : Yaml.timestampOf "2024-01-01" = .ok (.date ⟨2024, 1, 1⟩) := by rfl
    simp [Yaml.Node.value, Yaml.Node.entryValues, Yaml.Node.mergedValues, Yaml.Node.ownValues,
      Yaml.scalarValue, Yaml.Node.keyTag, Yaml.mapOf, Value.insert, Value.same, Value.isHashable, day, bind,
      Except.bind, pure, Except.pure, datedFields]
  · cases dated

theorem valueIn_dated : valueIn dated ⟨0, ["shelf", "tea.yaml"]⟩ = .ok (.map datedFields) := by
  have suffix : String.ofList (Text.lower (⟨0, ["shelf", "tea.yaml"]⟩ : Path).suffix.toList) = ".yaml" := by
    decide +kernel
  have text : dated.readText .pieces ⟨0, ["shelf", "tea.yaml"]⟩ = .ok datedText.toList :=
    ok_of_toOption (by decide +kernel)
  have read : Yaml.read datedText.toList = .ok (.map datedFields) :=
    Yaml.read_parsed (by decide +kernel) fun n => isDated_value
  unfold valueIn
  simp only [suffix, text, read, bind, Except.bind, Except.mapError]
  rfl

theorem read_dated : (opened shelf).read dated "tea" = .ok datedTea := by
  have found : (opened shelf).find dated "tea" = .ok (some ⟨0, ["shelf", "tea.yaml"]⟩) :=
    ok_of_toOption (by decide +kernel)
  have defined : Definition.ofValue (.map datedFields) = .ok datedTea := by with_unfolding_all rfl
  have named : datedTea.id.same (.text "tea") = true := Value.same_text.mpr rfl
  unfold Cookbook.read
  simp only [found, valueIn_dated, defined, named, bind, Except.bind, Except.mapError]
  rfl

/-- The definition loads, and its date keeps it from having a digest. -/
theorem fingerprint_dated : ∃ d b, (opened shelf).load dated "tea" none = .ok (d, b) ∧
    d.fingerprint = .error (.value "date") := by
  refine ⟨datedTea, { opened shelf with known := [("tea", datedTea)] }, ?_, rfl⟩
  have unknown : (opened shelf).known.lookup "tea" = none := rfl
  unfold load
  rw [unknown]
  simp only [wanted?, read_dated]
  rfl

end Cookbook

end Kitchen

import Kitchen.Proofs.Dish.Detour
import Kitchen.Proofs.Number.Whole

/-!
What comes back when a dish is turned to text or to bytes and asked for its own type again: texts, whole
numbers and JSON values without floats come back as they were, and bytes come back with whatever is broken
in them replaced.
-/
namespace Kitchen.Dish

variable {k via : Kind} {v : Value} {bs : List UInt8} {n : Int}

-- Turned to a type and then back to its own, the dish is as it was and gives its value.
def Returns (d : Dish) (tag : String) : Prop :=
  ∃ v d', d.get tag = .ok (v, d') ∧ d'.get d.tag = .ok (d.valueOrEmpty, d)

/-- A value comes back if it is what its own bytes are read as. -/
theorem returns_of_read (plain : via = .string ∨ via = .byteArray) (some : v ≠ .null)
    (text : k ≠ .byteArray) (other : k.tag ≠ via.tag) (bytes : toBytes v k = .ok bs)
    (back : ofBytes bs k = .ok v) : Returns ⟨v, k.tag⟩ via.tag := by
  obtain ⟨w, bs', there, some', bytes', same⟩ := get_between plain some other bytes
  have back' : ofBytes bs' k = .ok v := (same k fun _ => text).trans back
  refine ⟨w, _, there, ?_⟩
  rw [valueOrEmpty_some some]
  exact get_other via k some' (Ne.symm other) bytes' back' some

theorem returns_null (k via : Kind) : Returns ⟨.null, k.tag⟩ via.tag :=
  ⟨_, _, get_null k.tag via, get_null via.tag k⟩

theorem text_returns (s : String) : Returns ⟨.text s, "string"⟩ "byteArray" := by
  have back : ofBytes (Text.Utf8.encode s.toList) .string = .ok (.text s) := by
    simp only [ofBytes, Text.Utf8.decode_encode, String.ofList_toList]
  exact returns_of_read (k := .string) (.inr rfl) (by simp) (by decide) (by decide) (toBytes_text s) back

theorem readNumber_toString (short : Number.Short n) :
    readNumber (toString n).toList = .ok (.int n) := by
  have some : (toString n).toList.isEmpty = false := by
    -- An empty text would not be read as a number.
    apply List.isEmpty_eq_false_iff.mpr
    intro empty
    have read := Number.readInteger_toString short
    rw [empty] at read
    cases read
  unfold readNumber
  rw [some, if_neg Bool.false_ne_true, Number.readInteger_toString short]

theorem int_returns (short : Number.Short n) (plain : via = .string ∨ via = .byteArray) :
    Returns ⟨.int n, "number"⟩ via.tag := by
  have bytes : toBytes (.int n) .number = .ok (Text.Utf8.encode (toString n).toList) :=
    encoded_ofChars (toString n).toList
  have back : ofBytes (Text.Utf8.encode (toString n).toList) .number = .ok (.int n) := by
    simp only [ofBytes, Text.Utf8.decode_encode, Number.strip_toString]
    exact readNumber_toString short
  have other : Kind.number.tag ≠ via.tag := by rcases plain with rfl | rfl <;> decide
  exact returns_of_read (k := .number) plain (by simp) (by decide) other bytes back

/-- The text of an exact value is read as that value. -/
theorem json_reread (exact : Json.Exact v) :
    ∃ cs, Json.chars Json.spaced v = .ok cs ∧ Json.readChars cs = .ok v ∧ cs.isEmpty = false := by
  obtain ⟨cs, w, written, read, -, back⟩ := Json.reread exact.plain
  obtain rfl := back exact
  refine ⟨cs, written, read, List.isEmpty_eq_false_iff.mpr ?_⟩
  rintro rfl
  cases read

theorem json_returns (exact : Json.Exact v) (plain : via = .string ∨ via = .byteArray) :
    Returns ⟨v, "JSON"⟩ via.tag := by
  by_cases none : v = .null
  · rw [none]
    exact returns_null .json via
  · obtain ⟨cs, written, read, some⟩ := json_reread exact
    have bytes : toBytes v .json = .ok (Text.Utf8.encode cs) := by
      simp only [toBytes, written]
      rfl
    have back : ofBytes (Text.Utf8.encode cs) .json = .ok v := by
      simp only [ofBytes, Text.Utf8.decode_encode, some, read]
      rfl
    have other : Kind.json.tag ≠ via.tag := by rcases plain with rfl | rfl <;> decide
    exact returns_of_read (k := .json) plain none (by decide) other bytes back

/-- The copy of an exact value is read from its text. -/
theorem json_clone (exact : Json.Exact v) : clone ⟨v, "JSON"⟩ = .ok ⟨v, "JSON"⟩ := by
  obtain ⟨cs, written, read, -⟩ := json_reread exact
  have made : make v "JSON" = .ok ⟨v, "JSON"⟩ := by cases v <;> rfl
  unfold clone
  rw [if_pos (show (Dish.mk v "JSON").tag = Kind.json.tag from rfl), written]
  change ((Json.readChars cs).mapError _ >>= fun w => make w "JSON") = _
  rw [read]
  exact made

theorem get_bytes_string (bs : List UInt8) :
    Dish.get ⟨.bytes bs, "byteArray"⟩ "string" = .ok (.text (String.ofList (Text.Utf8.decode bs)),
      ⟨.text (String.ofList (Text.Utf8.decode bs)), "string"⟩) :=
  get_other .byteArray .string (by nofun) (by decide) rfl rfl (by nofun)

/-- Turning a dish to another type and back loses nothing that both types can hold. Text comes back from
bytes, and whole numbers that have no more digits than are converted and JSON values without floats come back
from text and from bytes; the copy of such a JSON value is the same value as well. Bytes can always be turned to
text and back: they come back as they were exactly if they are valid UTF-8, and what comes back does not
change when this is done again. -/
theorem lossless :
    (∀ s, Returns ⟨.text s, "string"⟩ "byteArray") ∧
    (∀ n, Number.Short n → ∀ tag ∈ ["string", "byteArray"], Returns ⟨.int n, "number"⟩ tag) ∧
    (∀ v, Json.Exact v → (∀ tag ∈ ["string", "byteArray"], Returns ⟨v, "JSON"⟩ tag) ∧
      clone ⟨v, "JSON"⟩ = .ok ⟨v, "JSON"⟩) ∧
    ∀ bs : List UInt8, ∃ s bs',
      Dish.get ⟨.bytes bs, "byteArray"⟩ "string" = .ok (.text s, ⟨.text s, "string"⟩) ∧
      Dish.get ⟨.text s, "string"⟩ "byteArray" = .ok (.bytes bs', ⟨.bytes bs', "byteArray"⟩) ∧
      (bs' = bs ↔ bs.toByteArray.IsValidUTF8) ∧
      Dish.get ⟨.bytes bs', "byteArray"⟩ "string" = .ok (.text s, ⟨.text s, "string"⟩) := by
  have kind : ∀ {tag}, tag ∈ ["string", "byteArray"] →
      ∃ via : Kind, via.tag = tag ∧ (via = .string ∨ via = .byteArray) := by
    intro tag mem
    rcases List.mem_pair.mp mem with rfl | rfl
    · exact ⟨.string, rfl, .inl rfl⟩
    · exact ⟨.byteArray, rfl, .inr rfl⟩
  refine ⟨text_returns, fun n short tag mem => ?_, fun v exact => ⟨fun tag mem => ?_, json_clone exact⟩,
    fun bs => ?_⟩
  · obtain ⟨via, rfl, plain⟩ := kind mem
    exact int_returns short plain
  · obtain ⟨via, rfl, plain⟩ := kind mem
    exact json_returns exact plain
  · -- The text that was read is what is written, and so it is what is read the second time.
    have back := get_text_bytes (String.ofList (Text.Utf8.decode bs))
    have again := get_bytes_text (String.ofList (Text.Utf8.decode bs))
    rw [String.toList_ofList] at back again
    exact ⟨_, _, get_bytes_string bs, back, Text.Utf8.encode_decode_iff, again⟩

-- An object whose keys are not in order, with nothing, a truth value and a negative number in it.
def pantry : Value :=
  .map [(.text "b", .list [.null, .bool true]), (.text "a", .int (-12))]

/-- It comes back from bytes with its keys as they stand, and so does the number alone from text. -/
theorem lossless_pantry : Number.Short (-12) ∧ Json.Exact pantry ∧
    Returns ⟨.int (-12), "number"⟩ "string" ∧ Returns ⟨pantry, "JSON"⟩ "byteArray" ∧
    clone ⟨pantry, "JSON"⟩ = .ok ⟨pantry, "JSON"⟩ := by
  have short : Number.Short (-12) := Number.short_of_lt (show 12 < Number.tenTo 2 by decide) (by decide)
  have list : Json.Exact (.list [.null, .bool true]) := by
    apply Json.Exact.list
    simp only [List.forall_mem_cons, List.not_mem_nil, false_imp_iff, implies_true, and_true]
    exact ⟨.null, .bool true⟩
  have exact : Json.Exact pantry := by
    apply Json.exact_map.mpr
    refine ⟨⟨by decide, by simp⟩, ?_⟩
    simp only [List.forall_mem_cons, List.not_mem_nil, false_imp_iff, implies_true, and_true]
    exact ⟨⟨.text "b", list⟩, .text "a", .int short⟩
  obtain ⟨-, ints, jsons, -⟩ := lossless
  have json := jsons pantry exact
  exact ⟨short, exact, ints (-12) short "string" List.mem_cons_self, json.1 "byteArray" (by decide), json.2⟩

end Kitchen.Dish

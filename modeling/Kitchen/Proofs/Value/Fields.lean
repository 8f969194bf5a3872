import Kitchen.Value.Equal
import Mathlib.Data.List.Nodup

namespace Kitchen.Value

variable {name : String} {k v : Value} {es : List (Value × Value)}

/-- A text is the same as no other value. -/
theorem same_of_isText (key : k.isText) : same k v = true ↔ v = k := by
  cases k with
  | text s =>
    cases v with
    | text t =>
      simp only [same, beq_iff_eq, text.injEq]
      exact eq_comm
    | _ => simp [same]
  | torn s =>
    cases v with
    | torn t =>
      simp only [same, beq_iff_eq, torn.injEq]
      exact eq_comm
    | _ => simp [same]
  | _ => cases key

theorem same_text : same (.text name) v = true ↔ v = .text name :=
  same_of_isText rfl

theorem lookup?_append (k : Value) (es fs : List (Value × Value)) :
    lookup? k (es ++ fs) = (lookup? k es).or (lookup? k fs) := by
  simp only [lookup?, List.find?_append, Option.map_or]

theorem field?_append (name : String) (es fs : List (Value × Value)) :
    field? name (es ++ fs) = (field? name es).or (field? name fs) :=
  lookup?_append _ es fs

/-- A name stands for the first value under it, and other entries are passed over. -/
theorem field?_cons (name key : String) (v : Value) (es : List (Value × Value)) :
    field? name ((.text key, v) :: es) = if name = key then some v else field? name es := by
  by_cases here : name = key
  · simp [field?, lookup?, same, here]
  · simp [field?, lookup?, same, here]

theorem field?_nil (name : String) : field? name [] = none :=
  rfl

theorem lookup?_eq_none (key : k.isText) : lookup? k es = none ↔ k ∉ es.map (·.1) := by
  simp only [lookup?, Option.map_eq_none_iff, List.find?_eq_none, same_of_isText key, List.mem_map,
    not_exists, not_and]

theorem field?_eq_none : field? name es = none ↔ .text name ∉ es.map (·.1) :=
  lookup?_eq_none rfl

/-- What stands under a key is in the map. -/
theorem mem_of_lookup? (key : k.isText) (found : lookup? k es = some v) : (k, v) ∈ es := by
  obtain ⟨e, first, rfl⟩ := Option.map_eq_some_iff.mp found
  have here : same k e.1 = true := by simpa using List.find?_some first
  have there := List.mem_of_find?_eq_some first
  rwa [← (same_of_isText key).mp here]

theorem mem_of_field? (found : field? name es = some v) : (.text name, v) ∈ es :=
  mem_of_lookup? rfl found

/-- If no key comes twice, one value stands under each. -/
theorem unique {k v w : Value} (distinct : (es.map (·.1)).Nodup) (mem : (k, v) ∈ es)
    (mem' : (k, w) ∈ es) : v = w := by
  have same := List.inj_on_of_nodup_map distinct mem mem' rfl
  exact congrArg Prod.snd same

/-- If no key comes twice, everything in the map stands under its key. -/
theorem lookup?_eq_some (key : k.isText) (distinct : (es.map (·.1)).Nodup) :
    lookup? k es = some v ↔ (k, v) ∈ es := by
  refine ⟨mem_of_lookup? key, fun there => ?_⟩
  cases found : lookup? k es with
  | none => exact absurd (List.mem_map_of_mem there) ((lookup?_eq_none key).mp found)
  | some w => rw [unique distinct (mem_of_lookup? key found) there]

end Kitchen.Value

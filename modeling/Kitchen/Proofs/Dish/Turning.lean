import Kitchen.Dish.Basic
import Kitchen.Proofs.Value.Texts

namespace Kitchen

theorem kind_of_tag (k : Kind) : Kind.ofTag? k.tag = some k := by
  cases k <;> decide

theorem tag_of_kind {tag : String} {k : Kind} (h : Kind.ofTag? tag = some k) : k.tag = tag := by
  simpa using List.find?_some h

theorem tag_injective {k k' : Kind} (same : k.tag = k'.tag) : k = k' := by
  have known := kind_of_tag k
  rw [same, kind_of_tag] at known
  exact (Option.some.inj known).symm

namespace Dish

/-- Characters have bytes, all of them. -/
theorem encoded_ofChars (cs : List Char) : encoded (Text.Glyph.ofChars cs) = .ok (Text.Utf8.encode cs) := by
  rw [encoded, Text.Glyph.any_ofChars, Text.Glyph.filterMap_ofChars]
  rfl

theorem toBytes_text (s : String) : toBytes (.text s) .string = .ok (Text.Utf8.encode s.toList) :=
  encoded_ofChars s.toList

theorem kindOf_ok {tag : String} {k : Kind} (h : kindOf tag = .ok k) : Kind.ofTag? tag = some k := by
  unfold kindOf at h
  split at h
  · next k' hk =>
    obtain rfl : k' = k := by simpa using h
    exact hk
  · cases h

theorem kindOf_of_kind {tag : String} {k : Kind} (h : Kind.ofTag? tag = some k) :
    kindOf tag = .ok k := by
  simp only [kindOf, h]

/-- A translated dish has the tag of its target. -/
theorem translate_tag {d d' : Dish} {k : Kind} (h : d.translate k = .ok d') : d'.tag = k.tag := by
  unfold translate at h
  split at h
  · cases h
    rfl
  · -- Each step on the way to the new value may fail; the last one sets the tag.
    simp only [bind, Except.bind] at h
    split at h
    · cases h
    · split at h
      · cases h
      · split at h
        · cases h
        · cases h
          rfl

theorem turn_tag {d d' : Dish} {tag : String} (h : d.turn tag = .ok d') : d'.tag = tag := by
  unfold turn at h
  simp only [bind, Except.bind] at h
  split at h
  · cases h
  · next k hk =>
    split at h
    · next htag =>
      cases h
      exact htag
    · rw [translate_tag h]
      exact tag_of_kind (kindOf_ok hk)

theorem turn_known {d d' : Dish} {tag : String} (h : d.turn tag = .ok d') :
    ∃ k, Kind.ofTag? tag = some k := by
  unfold turn at h
  simp only [bind, Except.bind] at h
  split at h
  · cases h
  · next k hk => exact ⟨k, kindOf_ok hk⟩

theorem get_eq {d d' : Dish} {tag : String} {v : Value} (h : d.get tag = .ok (v, d')) :
    d.turn tag = .ok d' ∧ v = d'.valueOrEmpty := by
  unfold get at h
  simp only [bind, Except.bind] at h
  split at h
  · cases h
  · next e he =>
    cases h
    exact ⟨he, rfl⟩

theorem get_tag {d d' : Dish} {tag : String} {v : Value} (h : d.get tag = .ok (v, d')) :
    d'.tag = tag :=
  turn_tag (get_eq h).1

theorem set_tag {d : Dish} {tag : String} {v : Value} (h : Dish.set v tag = .ok d) : d.tag = tag := by
  unfold set at h
  simp only [bind, Except.bind] at h
  split at h
  · cases h
  · split at h
    · -- Bytes given as a list are read one by one.
      split at h
      · cases h
      · cases h
        rfl
    · cases h
      rfl

theorem make_tag {d : Dish} {tag : String} {v : Value} (h : Dish.make v tag = .ok d) :
    d.tag = tag := by
  unfold make at h
  split at h
  · cases h
    rfl
  · exact set_tag h

/-- A dish of a known type is not turned when it is asked for that type. -/
theorem get_own {d : Dish} {k : Kind} (h : Kind.ofTag? d.tag = some k) :
    d.get d.tag = .ok (d.valueOrEmpty, d) := by
  simp only [get, turn, kindOf_of_kind h, bind, Except.bind, if_true, pure, Except.pure]

/-- Asked for the same type again, a dish stays as it is. -/
theorem get_again {d d' : Dish} {tag : String} {v : Value} (h : d.get tag = .ok (v, d')) :
    d'.get tag = .ok (v, d') := by
  obtain ⟨ht, rfl⟩ := get_eq h
  obtain ⟨k, hk⟩ := turn_known ht
  have htag : d'.tag = tag := turn_tag ht
  subst htag
  exact get_own hk

end Dish

end Kitchen

import Kitchen.Value.Literal

namespace Kitchen

namespace Text.Glyph

variable {g h : Glyph} {gs hs ks : List Glyph}

theorem filterMap_ofChars (cs : List Char) : (ofChars cs).filterMap char? = cs := by
  rw [ofChars, List.filterMap_map]
  exact List.filterMap_some

theorem any_ofChars (cs : List Char) : (ofChars cs).any isHalf = false := by
  rw [ofChars, List.any_map]
  exact List.any_eq_false.mpr fun c _ => Bool.false_ne_true

theorem half_not_mem_ofChars {e : Half} {cs : List Char} : half e ∉ ofChars cs := by
  intro mem
  obtain ⟨c, -, same⟩ := List.mem_map.mp mem
  cases same

/-- Glyphs without halves are characters. -/
theorem exists_ofChars (whole : gs.any isHalf = false) : ∃ cs, gs = ofChars cs := by
  induction gs with
  | nil => exact ⟨[], rfl⟩
  | cons g gs ih =>
    rw [List.any_cons, Bool.or_eq_false_iff] at whole
    obtain ⟨cs, rfl⟩ := ih whole.2
    cases g with
    | char c => exact ⟨c :: cs, rfl⟩
    | half h => cases whole.1

/-- The codes of halves are those that no character has. -/
theorem code_inj (same : g.code = h.code) : g = h := by
  cases g with
  | char c =>
    cases h with
    | char d => exact congrArg char (Char.toNat_inj.mp same)
    | half h =>
      have taken : c.toNat = h.code := same
      have valid : c.toNat < 0xD800 ∨ 0xDFFF < c.toNat ∧ c.toNat < 0x110000 := c.valid
      have bounds := h.bounds
      omega
  | half h =>
    cases ‹Glyph› with
    | char d =>
      have taken : h.code = d.toNat := same
      have valid : d.toNat < 0xD800 ∨ 0xDFFF < d.toNat ∧ d.toNat < 0x110000 := d.valid
      have bounds := h.bounds
      omega
    | half h' =>
      obtain ⟨n, bounds⟩ := h
      obtain ⟨n', bounds'⟩ := h'
      obtain rfl : n = n' := same
      rfl

/-- Every glyph is what its code stands for. -/
theorem ofCode_code (g : Glyph) : ofCode g.code = g := by
  cases g with
  | char c =>
    have valid : c.toNat < 0xD800 ∨ 0xDFFF < c.toNat ∧ c.toNat < 0x110000 := c.valid
    have whole : ¬(0xD800 ≤ c.toNat ∧ c.toNat < 0xE000) := by omega
    exact (dif_neg whole).trans (congrArg char (Char.ofNat_toNat c))
  | half e => exact dif_pos e.bounds

theorem before_cons : before (g :: gs) (h :: hs) ↔ g.code < h.code ∨ g.code = h.code ∧ before gs hs := by
  rw [before, Bool.or_eq_true, Bool.and_eq_true, decide_eq_true_eq, beq_iff_eq]

theorem not_before_trans (first : ¬before hs gs) (second : ¬before ks hs) : ¬before ks gs := by
  induction ks generalizing gs hs with
  | nil =>
    cases hs with
    | nil => exact first
    | cons h hs => exact absurd rfl second
  | cons k ks ih =>
    cases gs with
    | nil => exact Bool.false_ne_true
    | cons g gs =>
      cases hs with
      | nil => exact absurd rfl first
      | cons h hs =>
        rw [before_cons, not_or, not_and] at first second ⊢
        refine ⟨by omega, fun same => ?_⟩
        -- Where the first codes are the same at both ends, they are in between.
        have left : h.code = g.code := by omega
        have right : k.code = h.code := by omega
        exact ih (first.2 left) (second.2 right)

theorem not_before_total (gs hs : List Glyph) : ¬before gs hs ∨ ¬before hs gs := by
  induction gs generalizing hs with
  | nil => exact .inr (by cases hs <;> exact Bool.false_ne_true)
  | cons g gs ih =>
    cases hs with
    | nil => exact .inl Bool.false_ne_true
    | cons h hs =>
      simp only [before_cons, not_or, not_and]
      rcases Nat.lt_trichotomy g.code h.code with less | same | more
      · exact .inr ⟨by omega, fun same => by omega⟩
      · exact (ih hs).imp (fun rest => ⟨by omega, fun _ => rest⟩) fun rest => ⟨by omega, fun _ => rest⟩
      · exact .inl ⟨by omega, fun same => by omega⟩

/-- Texts that come in no order are the same. -/
theorem eq_of_not_before (first : ¬before gs hs) (second : ¬before hs gs) : gs = hs := by
  induction gs generalizing hs with
  | nil =>
    cases hs with
    | nil => rfl
    | cons h hs => exact absurd rfl first
  | cons g gs ih =>
    cases hs with
    | nil => exact absurd rfl second
    | cons h hs =>
      rw [before_cons, not_or, not_and] at first second
      have same : g.code = h.code := by omega
      rw [code_inj same, ih (first.2 same) (second.2 same.symm)]

/-- Where stretches of characters are changed, the halves between them stay. -/
theorem half_mem_mapStretches {e : Half} {f : List Char → List Char} (ds : List Char) :
    half e ∈ mapStretches f ds gs ↔ half e ∈ gs := by
  induction gs generalizing ds with
  | nil => exact iff_of_false half_not_mem_ofChars List.not_mem_nil
  | cons g gs ih =>
    cases g with
    | char c => simp [mapStretches, ih]
    | half e' => simp [mapStretches, half_not_mem_ofChars, ih]

end Text.Glyph

namespace Value

open Text (Glyph)

variable {v w : Value}

theorem ofGlyphs_ofChars (cs : List Char) : ofGlyphs (Glyph.ofChars cs) = text (String.ofList cs) := by
  have whole : ¬(Glyph.ofChars cs).any Glyph.isHalf := by
    rw [Glyph.any_ofChars]
    exact Bool.false_ne_true
  rw [ofGlyphs, dif_neg whole, Glyph.filterMap_ofChars]

theorem ofGlyphs_ofText (s : String) : ofGlyphs (Glyph.ofText s) = text s := by
  rw [Glyph.ofText, ofGlyphs_ofChars, String.ofList_toList]

theorem ofGlyphs_torn (t : Text.Torn) : ofGlyphs t.glyphs = torn t :=
  dif_pos t.torn

/-- Glyphs make up a text without halves, or one that is torn. -/
theorem ofGlyphs_cases (gs : List Glyph) :
    (∃ s, gs = Glyph.ofText s ∧ ofGlyphs gs = text s) ∨ ∃ t : Text.Torn, gs = t.glyphs ∧ ofGlyphs gs = torn t := by
  by_cases halves : gs.any Glyph.isHalf
  · exact .inr ⟨⟨gs, halves⟩, rfl, dif_pos halves⟩
  · obtain ⟨cs, rfl⟩ := Glyph.exists_ofChars (Bool.eq_false_iff.mpr halves)
    exact .inl ⟨String.ofList cs, by rw [Glyph.ofText, String.toList_ofList], ofGlyphs_ofChars cs⟩

/-- Glyphs make up a text without halves if there are none among them. -/
theorem ofGlyphs_text_iff {gs : List Glyph} : (∃ s, ofGlyphs gs = text s) ↔ ∀ e, Glyph.half e ∉ gs := by
  rcases ofGlyphs_cases gs with ⟨s, rfl, same⟩ | ⟨t, rfl, same⟩
  · exact iff_of_true ⟨s, same⟩ fun e => Glyph.half_not_mem_ofChars
  · refine iff_of_false (by simp [same]) fun whole => ?_
    obtain ⟨g, mem, half⟩ := List.any_eq_true.mp t.torn
    cases g with
    | char c => cases half
    | half e => exact whole e mem

theorem glyphs?_ofGlyphs (gs : List Glyph) : (ofGlyphs gs).glyphs? = some gs := by
  rcases ofGlyphs_cases gs with ⟨s, rfl, same⟩ | ⟨t, rfl, same⟩ <;> rw [same] <;> rfl

theorem glyphs_ofGlyphs (gs : List Glyph) : (ofGlyphs gs).glyphs = gs := by
  rcases ofGlyphs_cases gs with ⟨s, rfl, same⟩ | ⟨t, rfl, same⟩ <;> rw [same] <;> rfl

/-- Every text counts as true but the empty one. -/
theorem truthy_ofGlyphs {gs : List Glyph} : (ofGlyphs gs).truthy ↔ gs ≠ [] := by
  rcases ofGlyphs_cases gs with ⟨s, rfl, same⟩ | ⟨t, rfl, same⟩ <;> rw [same]
  · simp [truthy, Glyph.ofText, Glyph.ofChars]
  · refine iff_of_true rfl fun empty => ?_
    have torn := t.torn
    rw [empty] at torn
    cases torn

theorem isText_ofGlyphs (gs : List Glyph) : (ofGlyphs gs).isText := by
  rcases ofGlyphs_cases gs with ⟨s, -, same⟩ | ⟨t, -, same⟩ <;> rw [same] <;> rfl

theorem isText_of_glyphs? {gs : List Glyph} (text : v.glyphs? = some gs) : v.isText := by
  cases v with
  | text s => rfl
  | torn t => rfl
  | _ => cases text

theorem exists_ofGlyphs (text : v.isText) : ∃ gs, v = ofGlyphs gs := by
  cases v with
  | text s => exact ⟨Glyph.ofText s, (ofGlyphs_ofText s).symm⟩
  | torn t => exact ⟨t.glyphs, (ofGlyphs_torn t).symm⟩
  | _ => cases text

theorem eq_ofGlyphs {gs : List Glyph} (text : v.glyphs? = some gs) : v = ofGlyphs gs := by
  cases v with
  | text s =>
    cases text
    exact (ofGlyphs_ofText s).symm
  | torn t =>
    cases text
    exact (ofGlyphs_torn t).symm
  | _ => cases text

theorem isText_shown (v : Value) : v.shown.isText :=
  isText_ofGlyphs v.glyphs

/-- A text is shown as it is. -/
theorem shown_of_isText (text : v.isText) : v.shown = v := by
  cases v with
  | text s => exact ofGlyphs_ofText s
  | torn t => exact ofGlyphs_torn t
  | _ => cases text

theorem shown_of_glyphs? {gs : List Glyph} (text : v.glyphs? = some gs) : v.shown = ofGlyphs gs := by
  rw [shown_of_isText (isText_of_glyphs? text), eq_ofGlyphs text]

theorem ofGlyphs_inj {gs hs : List Glyph} (same : ofGlyphs gs = ofGlyphs hs) : gs = hs := by
  have glyphs := congrArg glyphs? same
  rw [glyphs?_ofGlyphs, glyphs?_ofGlyphs] at glyphs
  exact Option.some.inj glyphs

end Value

end Kitchen

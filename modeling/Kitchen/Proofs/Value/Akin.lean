import Kitchen.Proofs.Reference.Outline
import Kitchen.Proofs.Value.Texts
import Mathlib.Data.List.Forall2

namespace Kitchen

open Text (Glyph)

theorem forall₂_trans {α : Type} {R : α → α → Prop} (trans : ∀ {a b c}, R a b → R b c → R a c)
    {xs ys zs : List α} (h : List.Forall₂ R xs ys) (h' : List.Forall₂ R ys zs) :
    List.Forall₂ R xs zs := by
  induction h generalizing zs with
  | nil => exact h'
  | cons hab _ ih =>
    obtain ⟨c, rest, hbc, hrest, rfl⟩ := List.forall₂_cons_left_iff.mp h'
    exact .cons (trans hab hbc) (ih hrest)

/-- What stands in the second of two related lists comes from what stands there in the first. -/
theorem forall₂_back {α : Type} {R : α → α → Prop} {xs ys : List α} {n : Nat} {y : α}
    (h : List.Forall₂ R xs ys) (here : ys[n]? = some y) : ∃ x, xs[n]? = some x ∧ R x y := by
  induction h generalizing n with
  | nil => cases here
  | @cons first second _ _ related _ ih =>
    cases n with
    | zero =>
      obtain rfl : second = y := by simpa using here
      exact ⟨first, rfl, related⟩
    | succ n => exact ih (by simpa using here)

-- A text before and after references were filled in it.
def Value.Retold (v w : Value) : Prop :=
  v.isText ∧ w.isText

def EntryAkin (e f : Value × Value) : Prop :=
  f.1 = e.1 ∧ (f.2 = e.2 ∨ Value.same (.text "string") e.1 ∧ e.2.Retold f.2)

theorem EntryAkin.refl (e : Value × Value) : EntryAkin e e := ⟨rfl, .inl rfl⟩

theorem EntryAkin.trans {e f g : Value × Value} (h : EntryAkin e f) (h' : EntryAkin f g) :
    EntryAkin e g := by
  obtain ⟨key, kept | ⟨same, retold⟩⟩ := h
  · obtain ⟨key', kept' | ⟨same', retold'⟩⟩ := h'
    · exact ⟨key'.trans key, .inl (kept'.trans kept)⟩
    · exact ⟨key'.trans key, .inr ⟨key ▸ same', kept ▸ retold'⟩⟩
  · obtain ⟨key', kept' | ⟨-, retold'⟩⟩ := h'
    · exact ⟨key'.trans key, .inr ⟨same, kept' ▸ retold⟩⟩
    · exact ⟨key'.trans key, .inr ⟨same, ⟨retold.1, retold'.2⟩⟩⟩

namespace Value

-- An argument before and after references were filled in it.
def Akin : Value → Value → Prop
  | .text _, w | .torn _, w => w.isText
  | .map es, w => ∃ fs, w = .map fs ∧ List.Forall₂ EntryAkin es fs
  | v, w => w = v

theorem Akin.refl (v : Value) : v.Akin v := by
  cases v with
  | map es => exact ⟨es, rfl, List.forall₂_same.mpr fun e _ => .refl e⟩
  | _ => rfl

/-- A text is akin to every text, and to nothing else. -/
theorem akin_of_isText {v w : Value} (text : v.isText) : v.Akin w ↔ w.isText := by
  cases v with
  | text s => exact Iff.rfl
  | torn t => exact Iff.rfl
  | _ => cases text

theorem Akin.trans {u v w : Value} (h : u.Akin v) (h' : v.Akin w) : u.Akin w := by
  cases u with
  | text s => exact (akin_of_isText h).mp h'
  | torn t => exact (akin_of_isText h).mp h'
  | map es =>
    obtain ⟨fs, rfl, hf⟩ := h
    obtain ⟨gs, rfl, hg⟩ := h'
    exact ⟨gs, rfl, forall₂_trans (fun h h' => h.trans h') hf hg⟩
  | _ =>
    cases h
    exact h'

theorem whole?_of_isText {v : Value} (text : v.isText) : v.whole? = none := by
  cases v with
  | text s => rfl
  | torn t => rfl
  | _ => cases text

/-- Whole numbers are never rewritten. -/
theorem Akin.whole {v w : Value} (h : v.Akin w) : w.whole? = v.whole? := by
  cases v with
  | text s => exact whole?_of_isText h
  | torn t => exact whole?_of_isText h
  | map es =>
    obtain ⟨fs, rfl, -⟩ := h
    rfl
  | _ =>
    cases h
    rfl

theorem insert_akin {v w : Value} {es : List (Value × Value)} (found : field? "string" es = some v)
    (retold : v.Retold w) : List.Forall₂ EntryAkin es (insert (.text "string") w es) := by
  induction es with
  | nil => cases found
  | cons e rest ih =>
    obtain ⟨k, u⟩ := e
    unfold insert
    by_cases same : Value.same (.text "string") k
    · -- The needle itself takes the new text.
      have here : u = v := by
        simpa only [field?, lookup?, List.find?, same, Option.map_some, Option.some.injEq] using found
      rw [if_pos same, here]
      exact .cons ⟨rfl, .inr ⟨same, retold⟩⟩ (List.forall₂_same.mpr fun e _ => .refl e)
    · have further : field? "string" rest = some v := by
        simpa only [field?, lookup?, List.find?, same] using found
      rw [if_neg same]
      exact .cons (.refl _) (ih further)

end Value

namespace Value

mutual

-- Whether no text in a value is torn.
def isUntorn : Value → Bool
  | torn _ => false
  | list xs | tuple xs | set xs => areUntorn xs
  | map es => entriesUntorn es
  | _ => true

def areUntorn : List Value → Bool
  | [] => true
  | x :: xs => isUntorn x && areUntorn xs

def entriesUntorn : List (Value × Value) → Bool
  | [] => true
  | (k, v) :: es => isUntorn k && isUntorn v && entriesUntorn es

end

theorem isUntorn_ofGlyphs {gs : List Glyph} : (ofGlyphs gs).isUntorn ↔ ∀ e, .half e ∉ gs := by
  rw [← ofGlyphs_text_iff]
  rcases ofGlyphs_cases gs with ⟨s, -, same⟩ | ⟨t, -, same⟩ <;> simp [same, isUntorn]

/-- Shown, a value has no halves if it has none. -/
theorem shown_of_isUntorn {v : Value} (untorn : v.isUntorn) : ∃ s, v.shown = .text s := by
  cases v with
  | torn t => cases untorn
  | _ => exact ⟨_, ofGlyphs_ofText _⟩

theorem half_not_mem_of_isUntorn {v : Value} {gs : List Glyph} (untorn : v.isUntorn)
    (text : v.glyphs? = some gs) (e : Text.Half) : .half e ∉ gs := by
  rw [eq_ofGlyphs text] at untorn
  exact isUntorn_ofGlyphs.mp untorn e

theorem entriesUntorn_cons {e : Value × Value} {es : List (Value × Value)} :
    entriesUntorn (e :: es) ↔ (e.1.isUntorn ∧ e.2.isUntorn) ∧ entriesUntorn es := by
  obtain ⟨k, v⟩ := e
  rw [entriesUntorn, Bool.and_eq_true, Bool.and_eq_true]

theorem field?_untorn {es : List (Value × Value)} {name : String} {v : Value} (untorn : entriesUntorn es)
    (found : field? name es = some v) : v.isUntorn := by
  induction es with
  | nil => cases found
  | cons e es ih =>
    rw [entriesUntorn_cons] at untorn
    cases same : Value.same (.text name) e.1 with
    | true =>
      obtain rfl : e.2 = v := by simpa [field?, lookup?, same] using found
      exact untorn.1.2
    | false =>
      have found : field? name es = some v := by simpa [field?, lookup?, same] using found
      exact ih untorn.2 found

theorem insert_untorn {es : List (Value × Value)} {name : String} {v : Value} (untorn : entriesUntorn es)
    (value : v.isUntorn) : entriesUntorn (insert (.text name) v es) := by
  induction es with
  | nil => exact entriesUntorn_cons.mpr ⟨⟨rfl, value⟩, rfl⟩
  | cons e es ih =>
    rw [entriesUntorn_cons] at untorn
    unfold insert
    split
    · exact entriesUntorn_cons.mpr ⟨⟨untorn.1.1, value⟩, untorn.2⟩
    · exact entriesUntorn_cons.mpr ⟨untorn.1, ih untorn.2⟩

end Value

namespace Reference

variable {c : Capture} {gs : List Glyph} {k : Nat} {e : Text.Half} {v : Value}

theorem Capture.resolveValue_akin (c : Capture) (v : Value) : v.Akin (c.resolveValue v) := by
  unfold resolveValue
  cases has : textOf? v with
  | none => exact .refl v
  | some gs =>
    cases v with
    | map es =>
      obtain ⟨w, found, text⟩ := Option.bind_eq_some_iff.mp has
      have texts : w.Retold _ := ⟨Value.isText_of_glyphs? text, Value.isText_ofGlyphs (c.resolveText gs)⟩
      exact ⟨_, rfl, Value.insert_akin found texts⟩
    | text s => exact Value.isText_ofGlyphs _
    | torn t => exact Value.isText_ofGlyphs _
    | _ => cases has

theorem half_not_mem_slashes : .half e ∉ slashes k := by
  intro mem
  cases List.eq_of_mem_replicate mem

theorem Capture.half_mem_fill {digits : List Glyph} {m : Nat} (mem : .half e ∈ c.fill k digits m) :
    .half e ∈ digits ∨ ∃ t ∈ c.texts, .half e ∈ t := by
  unfold fill at mem
  split at mem
  · simpa [half_not_mem_slashes] using Or.inl mem
  · next text found =>
    split at mem
    · simpa [half_not_mem_slashes] using Or.inl mem
    · have captured : text ∈ c.texts := by
        unfold text? at found
        split at found
        · cases found
        · exact List.mem_of_getElem? found
      rw [List.mem_append] at mem
      exact .inr ⟨text, captured, mem.resolve_left half_not_mem_slashes⟩

/-- The halves in a filled text are its own and those of the captured texts. -/
theorem Capture.half_mem_resolve (mem : .half e ∈ c.resolve k gs) :
    .half e ∈ gs ∨ ∃ t ∈ c.texts, .half e ∈ t := by
  fun_induction Capture.resolve c k gs with
  | case1 k => exact absurd mem half_not_mem_slashes
  | case2 k rest ih => exact (ih mem).imp_left (List.mem_cons_of_mem _)
  | case3 k rest num ih =>
    have later : .half e ∈ c.resolve 0 rest := by simpa [half_not_mem_slashes] using mem
    exact (ih later).imp_left fun here => List.mem_cons_of_mem _ (List.mem_cons_of_mem _ here)
  | case4 k rest digits m more num _ ih =>
    have spelled := (numeral?_eq_some num).1
    have own {g : Glyph} (here : g ∈ digits ∨ g ∈ more) : g ∈ .char '$' :: .char 'R' :: rest := by
      rw [spelled]
      exact List.mem_cons_of_mem _ (List.mem_cons_of_mem _ (List.mem_append.mpr here))
    rcases List.mem_append.mp mem with filled | later
    · exact (half_mem_fill filled).imp_left fun here => own (.inl here)
    · exact (ih later).imp_left fun here => own (.inr here)
  | case5 k g rest noslash noref ih =>
    have later : .half e = g ∨ .half e ∈ c.resolve 0 rest := by simpa [half_not_mem_slashes] using mem
    rcases later with rfl | later
    · exact .inl List.mem_cons_self
    · exact (ih later).imp_left (List.mem_cons_of_mem g)

/-- The text of an argument without halves has none. -/
theorem untorn_textOf? (untorn : v.isUntorn) (text : textOf? v = some gs) : ∀ e, .half e ∉ gs := by
  cases v with
  | map es =>
    obtain ⟨w, found, text⟩ := Option.bind_eq_some_iff.mp text
    exact Value.half_not_mem_of_isUntorn (Value.field?_untorn untorn found) text
  | _ => exact Value.half_not_mem_of_isUntorn untorn text

/-- Texts without halves bring none into an argument. -/
theorem Capture.resolveValue_untorn (whole : ∀ t ∈ c.texts, ∀ e, .half e ∉ t) (untorn : v.isUntorn) :
    (c.resolveValue v).isUntorn := by
  have filled {gs : List Glyph} (own : ∀ e, .half e ∉ gs) : (Value.ofGlyphs (c.resolveText gs)).isUntorn := by
    rw [Value.isUntorn_ofGlyphs]
    intro e mem
    rcases half_mem_resolve mem with here | ⟨t, captured, there⟩
    · exact own e here
    · exact whole t captured e there
  unfold resolveValue
  cases has : textOf? v with
  | none => exact untorn
  | some gs =>
    have whole := filled (untorn_textOf? untorn has)
    cases v with
    | map es => exact Value.insert_untorn untorn whole
    | text s => exact whole
    | torn t => cases untorn
    | _ => cases has

end Reference

end Kitchen

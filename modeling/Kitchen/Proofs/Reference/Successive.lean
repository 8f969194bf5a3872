import Kitchen.Proofs.Reference.Outline
import Kitchen.Proofs.Value.Texts

/-!
References that are filled twice, by one capture and by the one after it. What the first one fills in is
read again by the second: so the two come to the same as one capture of all texts exactly if the text that
the first one leaves asks for the later texts where the text itself did. That is so where the texts filled
in hold no dollar sign and no backslash, and do not go on with a reference that ends right before them.
-/
namespace Kitchen.Reference

open Text (Glyph)

variable {c : Capture} {cs rest more digits : List Glyph} {k m : Nat} {x : Glyph}

namespace Capture

-- A capture of texts right after those of another one.
def next (c : Capture) (texts : List (List Glyph)) : Capture :=
  ⟨c.base + c.texts.length, texts⟩

-- One capture of its texts and further ones.
def extended (c : Capture) (texts : List (List Glyph)) : Capture :=
  ⟨c.base, c.texts ++ texts⟩

-- The captured text, where the capture has it; what further captures have is left open.
def early (c : Capture) : Slot → List Slot
  | .glyph x => [.glyph x]
  | .captured m =>
    match c.text? m with
    | none => [.captured m]
    | some v => v.map .glyph

theorem text?_extended (c : Capture) (texts : List (List Glyph)) (m : Nat) :
    (c.extended texts).text? m = (c.text? m).or ((c.next texts).text? m) := by
  unfold text? extended next
  dsimp only
  by_cases before : m < c.base
  · rw [if_pos before, if_pos before, if_pos (by omega)]
    rfl
  · rw [if_neg before, if_neg before]
    by_cases own : m < c.base + c.texts.length
    · have here : m - c.base < c.texts.length := by omega
      rw [if_pos own, List.getElem?_append_left here, Option.or_none]
    · rw [if_neg own, List.getElem?_append_right (by omega),
        List.getElem?_eq_none (l := c.texts) (by omega), Option.none_or]
      congr 1
      omega

/-- Texts of both captures may be put in one after the other. -/
theorem early_put (c : Capture) (texts : List (List Glyph)) (s : Slot) :
    (c.early s).flatMap (c.next texts).put = (c.extended texts).put s := by
  cases s with
  | glyph x => rfl
  | captured m =>
    simp only [early, put, text?_extended]
    cases c.text? m with
    | none => exact List.flatMap_singleton _ _
    | some v => exact (c.next texts).flatMap_put_glyph v

def beyond (c : Capture) (count : Nat) : Span := ⟨c.base + c.texts.length, count⟩

def within (c : Capture) (count : Nat) : Span := ⟨c.base, c.texts.length + count⟩

theorem within_has {count : Nat} : (c.within count).Has m ↔ c.span.Has m ∨ (c.beyond count).Has m := by
  unfold within span beyond Span.Has
  dsimp only
  omega

theorem not_beyond {count : Nat} (has : c.span.Has m) : ¬(c.beyond count).Has m := by
  unfold span Span.Has at has
  unfold beyond Span.Has
  dsimp only at has ⊢
  omega

-- The text that the capture leaves asks for the next texts, so many of them, where the text itself did, and
-- drops the same backslashes: what was put in asks for none, and neither makes nor spoils a reference with what
-- stands beside it.
def Settled (c : Capture) (count : Nat) (cs : List Glyph) : Prop :=
  (c.beyond count).outline 0 (c.resolve 0 cs) =
    ((c.within count).outline 0 cs).flatMap c.early

instance (c : Capture) (count : Nat) (cs : List Glyph) : Decidable (c.Settled count cs) :=
  inferInstanceAs (Decidable (_ = _))

/-- What two captures make of a text, as two outlines in which the texts of the second are put. -/
theorem resolve_next (c : Capture) (texts : List (List Glyph)) (cs : List Glyph) :
    (c.next texts).resolve 0 (c.resolve 0 cs) =
      ((c.beyond texts.length).outline 0 (c.resolve 0 cs)).flatMap
        (c.next texts).put :=
  (c.next texts).resolve_outline 0 _

theorem resolve_extended (c : Capture) (texts : List (List Glyph)) (cs : List Glyph) :
    (c.extended texts).resolve 0 cs =
      (((c.within texts.length).outline 0 cs).flatMap c.early).flatMap
        (c.next texts).put := by
  have span : (c.extended texts).span = c.within texts.length := by
    simp only [Capture.span, extended, within, List.length_append]
  rw [resolve_outline, span, List.flatMap_assoc]
  exact List.flatMap_congr fun s _ => (c.early_put texts s).symm

/-- The texts of the next capture are what is left open of an outline for both. -/
theorem early_covers (c : Capture) (count : Nat) (cs : List Glyph) :
    (c.beyond count).Covers
      (((c.within count).outline 0 cs).flatMap c.early) := by
  intro m mem
  obtain ⟨s, mem, early⟩ := List.mem_flatMap.mp mem
  cases s with
  | glyph x => simp [Capture.early] at early
  | captured m' =>
    have has := Span.outline_covers _ 0 cs m' mem
    simp only [Capture.early] at early
    cases text : c.text? m' with
    | some v => simp [text] at early
    | none =>
      obtain rfl : m = m' := by simpa [text] using early
      have later : ¬c.span.Has m := by
        rw [← Capture.text?_isSome, text]
        exact Bool.false_ne_true
      exact (Capture.within_has.mp has).resolve_left later

end Capture

-- How a text ends, as to a reference that could go on: with a dollar sign, or with the R or the only digit of a
-- reference.
inductive Edge where
  | clear
  | dollar
  | begun
  deriving DecidableEq, Repr

namespace Edge

def Takes : Edge → Glyph → Prop
  | clear, _ => False
  | dollar, x => x = .char 'R'
  | begun, x => x.digit?.isSome

-- How a text ends after one more glyph.
def past (e : Edge) (x : Glyph) : Edge :=
  if x = .char '$' then dollar else if e = dollar ∧ x = .char 'R' then begun else clear

-- Whether a text may be put in here: unless no reference could go on, it begins with something else.
def Admits (e : Edge) (v : List Glyph) : Prop :=
  e = clear ∨ ∃ x rest, v = x :: rest ∧ ¬e.Takes x

theorem not_takes_dollar (e : Edge) : ¬e.Takes (.char '$') := by
  cases e <;> unfold Takes <;> decide

theorem not_takes_slash (e : Edge) : ¬e.Takes (.char '\\') := by
  cases e <;> unfold Takes <;> decide

end Edge

namespace Capture

def edge (c : Capture) (e : Edge) : Token → Edge
  | .glyph x => e.past x
  | .reference k digits m =>
    if c.span.Has m ∧ k % 2 = 0 then .clear
    else if digits.length = 1 then .begun
    else .clear

-- Whether a captured text can be told from what stands before it, and asks for nothing itself.
def Fits (c : Capture) (e : Edge) : Token → Prop
  | .glyph _ => True
  | .reference k _ m => ∀ v, c.text? m = some v → k % 2 = 0 →
      (.char '$' ∉ v ∧ .char '\\' ∉ v) ∧ (k = 0 → e.Admits v)

-- All captured texts that a text asks for fit where they are put in.
def Apart (c : Capture) : Edge → List Token → Prop
  | _, [] => True
  | e, t :: rest => c.Fits e t ∧ c.Apart (c.edge e t) rest

theorem apart_glyphs {e : Edge} {xs : List Glyph} {rest : List Token} :
    c.Apart e (xs.map .glyph ++ rest) ↔ c.Apart (xs.foldl Edge.past e) rest := by
  induction xs generalizing e with
  | nil => exact Iff.rfl
  | cons x xs ih =>
    simp only [List.map_cons, List.cons_append, Apart, Fits, true_and, List.foldl_cons]
    exact ih

/-- A reference that is not complete goes on only where it did so before anything was put in. -/
theorem Apart.leads {e : Edge} {w : List Glyph} (apart : c.Apart e (tokens k cs))
    (eq : c.resolve k cs = x :: w) (takes : e.Takes x) : k = 0 ∧ ∃ rest, cs = x :: rest := by
  have dollar : ∀ {u : List Glyph}, .char '$' :: u = x :: w → False := by
    intro u eq
    cases eq
    exact e.not_takes_dollar takes
  have slash : ∀ {k : Nat} {u : List Glyph}, slashes k ++ u = x :: w → k = 0 := by
    intro k u eq
    cases k with
    | zero => rfl
    | succ k =>
      cases eq
      exact absurd takes e.not_takes_slash
  fun_induction tokens k cs with
  | case1 k =>
    rw [resolve] at eq
    obtain rfl := slash (k := k) (by rw [List.append_nil, eq])
    cases eq
  | case2 k rest ih =>
    rw [resolve] at eq
    exact absurd (ih apart eq).1 (Nat.succ_ne_zero k)
  | case3 k rest num ih =>
    rw [resolve_bare num] at eq
    obtain rfl := slash eq
    exact (dollar eq).elim
  | case4 k rest digits m more num _ ih =>
    rw [resolve_reference num, fill] at eq
    cases text : c.text? m with
    | none =>
      rw [text, List.append_assoc] at eq
      obtain rfl := slash eq
      exact (dollar eq).elim
    | some v =>
      rw [text] at eq
      dsimp only at eq
      split at eq
      · rw [List.append_assoc] at eq
        rw [slash eq] at eq
        exact (dollar eq).elim
      · next even =>
        obtain ⟨-, admits⟩ := apart.1 v text (by omega)
        rw [List.append_assoc] at eq
        obtain rfl := slash eq
        rcases admits rfl with rfl | ⟨y, u, rfl, bars⟩
        · exact takes.elim
        · cases eq
          exact absurd takes bars
  | case5 k y rest noslash noref ih =>
    rw [resolve] at eq
    · obtain rfl := slash eq
      cases eq
      exact ⟨rfl, rest, rfl⟩
    · exact noslash
    · exact noref

end Capture

namespace Capture

theorem early_glyphs (c : Capture) (xs : List Glyph) : (xs.map Slot.glyph).flatMap c.early = xs.map .glyph := by
  rw [List.flatMap_map, List.map_eq_flatMap]
  rfl

/-- A reference that the capture leaves as it is may be filled by what comes after it. -/
theorem slots_early {count : Nat} (text : c.text? m = none) :
    ((c.within count).slots (.reference k digits m)).flatMap c.early =
      (c.beyond count).slots (.reference k digits m) := by
  have notown : ¬c.span.Has m := by
    rw [← text?_isSome, text]
    exact Bool.false_ne_true
  simp only [Span.slots, within_has, notown, false_or]
  split
  · split
    · exact c.early_glyphs _
    · rw [List.flatMap_append, early_glyphs, List.flatMap_singleton, early, text]
  · exact c.early_glyphs _

theorem Apart.unnumbered (apart : c.Apart .begun (tokens 0 rest)) (num : numeral? rest = none) :
    numeral? (c.resolve 0 rest) = none := by
  refine numeral?_eq_none.mpr fun x w eq => ?_
  cases value : x.digit? with
  | none => rfl
  | some n =>
    have takes : Edge.begun.Takes x := by
      simp only [Edge.Takes, value, Option.isSome_some]
    obtain ⟨-, rest', rfl⟩ := apart.leads eq takes
    rw [numeral?_eq_none.mp num x rest' rfl] at value
    cases value

/-- A reference with its backslashes, that the first capture leaves there, is read as it stands. -/
theorem Apart.reread {s : Span} (num : numeral? rest = some (digits, m, more))
    (apart : c.Apart (if digits.length = 1 then .begun else .clear) (tokens 0 more)) :
    s.outline 0 (slashes k ++ .char '$' :: .char 'R' :: digits ++ c.resolve 0 more) =
      s.slots (.reference k digits m) ++ s.outline 0 (c.resolve 0 more) := by
  obtain ⟨-, none, again⟩ := numeral?_eq_some num
  have num := again (c.resolve 0 more) fun one => by
    rw [if_pos one] at apart
    exact apart.unnumbered (none one)
  rw [List.append_assoc, Span.outline_slashes]
  exact Span.outline_reference num

/-- Where all texts fit in, the second reading finds what the first one left. -/
theorem Apart.settled {count : Nat} {e : Edge} (apart : c.Apart e (tokens k cs)) :
    (c.beyond count).outline 0 (c.resolve k cs) = ((c.within count).outline k cs).flatMap c.early := by
  fun_induction tokens k cs generalizing e with
  | case1 k =>
    have none : tokens k [] = (slashes k).map .glyph ++ tokens 0 [] := by
      rw [tokens, tokens]
      exact (List.append_nil _).symm
    have left := (c.beyond count).outline_slashes k []
    rw [List.append_nil] at left
    rw [resolve, left, Span.outline_glyphs none, Span.outline_glyphs none, List.flatMap_append, early_glyphs,
      Span.outline_nil, Span.outline_nil, List.flatMap_nil]
  | case2 k rest ih =>
    rw [resolve, ih apart, Span.outline, Span.outline, tokens]
  | case3 k rest num ih =>
    have apart := apart_glyphs.mp apart
    have begun : (slashes k ++ [Glyph.char '$', .char 'R']).foldl Edge.past e = .begun := by
      rw [List.foldl_append]
      rfl
    rw [begun] at apart
    rw [resolve_bare num, Span.outline_slashes, Span.outline_glyphs (tokens_bare (apart.unnumbered num)),
      Span.outline_glyphs (tokens_bare num), List.flatMap_append, early_glyphs, ih apart]
  | case4 k rest digits m more num _ ih =>
    rw [resolve_reference num, Span.outline_reference num, List.flatMap_append, fill]
    obtain ⟨fits, apart⟩ := apart
    have same := ih apart
    simp only [edge, ← text?_isSome] at apart
    cases text : c.text? m with
    | none =>
      rw [text] at apart
      dsimp only
      rw [slots_early text, ← same]
      exact Apart.reread num (by simpa using apart)
    | some v =>
      have own : c.span.Has m := by
        rw [← text?_isSome, text, Option.isSome_some]
      have both : (c.within count).Has m := within_has.mpr (.inl own)
      have notlater : ¬(c.beyond count).Has m := not_beyond own
      dsimp only
      split
      · next odd =>
        rw [text] at apart
        rw [Apart.reread num (by simpa [odd] using apart), same]
        simp only [Span.slots, both, odd, notlater, if_true, if_false, early_glyphs]
      · next odd =>
        have even : k % 2 = 0 := by omega
        have own' : (c.within count).slots (.reference k digits m) =
            (slashes k).map .glyph ++ [.captured m] := by
          simp only [Span.slots, both, odd, if_true, if_false]
        have put : ([Slot.captured m]).flatMap c.early = v.map .glyph := by
          rw [List.flatMap_singleton, early, text]
        rw [own', List.flatMap_append, early_glyphs, put, ← same, List.append_assoc, Span.outline_slashes]
        cases v with
        | nil =>
          rw [List.nil_append, List.map_nil, List.append_nil]
          exact Span.outline_slashes_even _ even _
        | cons y v =>
          have read := tokens_inert (k := k) (fits _ text even).1 (List.cons_ne_nil y v) (c.resolve 0 more)
          rw [Span.outline_glyphs read, List.map_append, List.append_assoc]
  | case5 k x rest noslash noref ih =>
    have noref : x = .char '$' → ∀ more, rest ≠ .char 'R' :: more := fun dollar more eq => noref more dollar eq
    have apart := apart_glyphs.mp apart
    have still : x = .char '$' → ∀ more, c.resolve 0 rest ≠ .char 'R' :: more := by
      rintro rfl more eq
      have dollar : (slashes k ++ [Glyph.char '$']).foldl Edge.past e = .dollar := by
        rw [List.foldl_append]
        rfl
      rw [dollar] at apart
      obtain ⟨-, rest', eq⟩ := apart.leads eq rfl
      exact noref rfl rest' eq
    have left : c.resolve k (x :: rest) = slashes k ++ x :: c.resolve 0 rest := by
      rw [resolve]
      · exact noslash
      · exact fun more dollar eq => noref dollar more eq
    rw [left, Span.outline_slashes, Span.outline_glyphs (tokens_plain noslash still),
      Span.outline_glyphs (tokens_plain noslash noref), List.flatMap_append, early_glyphs, ih apart]

-- Texts that fit in anywhere.
def Inert (v : List Glyph) : Prop :=
  ∃ x rest, v = x :: rest ∧ x ≠ .char 'R' ∧ x.digit? = none ∧ .char '$' ∉ v ∧ .char '\\' ∉ v

theorem apart_of_inert (inert : ∀ v ∈ c.texts, Inert v) (e : Edge) (ts : List Token) : c.Apart e ts := by
  induction ts generalizing e with
  | nil => trivial
  | cons t ts ih =>
    refine ⟨?_, ih _⟩
    cases t with
    | glyph x => trivial
    | reference k digits m =>
      intro v text _
      have mem : v ∈ c.texts := by
        unfold text? at text
        split at text
        · cases text
        · exact List.mem_of_getElem? text
      obtain ⟨x, rest, rfl, letter, nodigit, clean⟩ := inert v mem
      refine ⟨clean, fun _ => ?_⟩
      cases e with
      | clear => exact .inl rfl
      | dollar => exact .inr ⟨x, rest, rfl, letter⟩
      | begun =>
        refine .inr ⟨x, rest, rfl, ?_⟩
        simp [Edge.Takes, nodigit]

end Capture

section Arguments

variable {es : List (Value × Value)} {name : String} {old v w : Value}

theorem field?_insert (found : Value.field? name es = some old) :
    Value.field? name (Value.insert (.text name) v es) = some v := by
  induction es with
  | nil => cases found
  | cons e es ih =>
    cases same : Value.same (.text name) e.1 with
    | true => simp [Value.insert, Value.field?, Value.lookup?, same]
    | false =>
      have found : Value.field? name es = some old := by
        simpa [Value.field?, Value.lookup?, same] using found
      simpa [Value.insert, Value.field?, Value.lookup?, same] using ih found

theorem insert_insert (found : Value.field? name es = some old) :
    Value.insert (.text name) w (Value.insert (.text name) v es) = Value.insert (.text name) w es := by
  induction es with
  | nil => cases found
  | cons e es ih =>
    cases same : Value.same (.text name) e.1 with
    | true => simp [Value.insert, same]
    | false =>
      have found : Value.field? name es = some old := by
        simpa [Value.field?, Value.lookup?, same] using found
      simp [Value.insert, same, ih found]

theorem textOf?_withText {gs hs : List Glyph} (has : textOf? v = some gs) :
    textOf? (withText hs v) = some hs := by
  have again : textOf? (.ofGlyphs hs) = some hs := by
    rcases Value.ofGlyphs_cases hs with ⟨s, rfl, same⟩ | ⟨t, rfl, same⟩ <;> rw [same] <;> rfl
  cases v with
  | map es =>
    obtain ⟨entry, found, -⟩ := Option.bind_eq_some_iff.mp has
    change (Value.field? "string" (Value.insert (.text "string") (.ofGlyphs hs) es)).bind Value.glyphs? = _
    rw [field?_insert found, Option.bind_some, Value.glyphs?_ofGlyphs]
  | text s => exact again
  | torn t => exact again
  | _ => cases has

theorem withText_withText {gs hs ks : List Glyph} (has : textOf? v = some gs) :
    withText ks (withText hs v) = withText ks v := by
  have again : withText ks (.ofGlyphs hs) = .ofGlyphs ks := by
    rcases Value.ofGlyphs_cases hs with ⟨s, rfl, same⟩ | ⟨t, rfl, same⟩ <;> rw [same] <;> rfl
  cases v with
  | map es =>
    obtain ⟨entry, found, -⟩ := Option.bind_eq_some_iff.mp has
    simp only [withText, insert_insert found]
  | text s => exact again
  | torn t => exact again
  | _ => cases has

end Arguments

namespace Capture

/-- Two captures come to the same as one, whatever the second one captures, exactly if the text that the
first one leaves asks for the later texts where the text itself did. That is so where the texts of the
first one can be told from what stands before them and ask for nothing themselves; and it carries over
from the text of an argument to the argument. -/
theorem captures_compose (c : Capture) (count : Nat) :
    (∀ gs : List Glyph,
      ((∀ texts : List (List Glyph), texts.length = count →
          (c.next texts).resolveText (c.resolveText gs) = (c.extended texts).resolveText gs) ↔
        c.Settled count gs)) ∧
    (∀ gs : List Glyph, c.Apart .clear (tokens 0 gs) → c.Settled count gs) ∧
    ((∀ v ∈ c.texts, Inert v) → ∀ gs : List Glyph, c.Settled count gs) ∧
    (∀ v : Value, (∀ gs, textOf? v = some gs → c.Settled count gs) →
      ∀ texts : List (List Glyph), texts.length = count →
        (c.next texts).resolveValue (c.resolveValue v) = (c.extended texts).resolveValue v) := by
  have settles : ∀ {gs : List Glyph}, c.Settled count gs → ∀ texts : List (List Glyph),
      texts.length = count →
        (c.next texts).resolveText (c.resolveText gs) = (c.extended texts).resolveText gs := by
    intro gs settled texts long
    obtain rfl := long
    exact (c.resolve_next texts gs).trans (settled ▸ c.resolve_extended texts gs).symm
  refine ⟨fun gs => ⟨fun same => ?_, settles⟩, fun gs apart => apart.settled,
    fun inert gs => (apart_of_inert inert .clear _).settled, fun v settled texts long => ?_⟩
  · refine outline_unique (Span.outline_covers _ 0 _) (c.early_covers count _) fun texts long => ?_
    have eq := same texts long
    obtain rfl := long
    rwa [resolveText, resolveText, resolveText, resolve_next, resolve_extended] at eq
  · simp only [resolveValue]
    cases has : textOf? v with
    | none => simp only [has]
    | some gs => simp only [textOf?_withText has, withText_withText has, settles (settled gs has) texts long]

/-- The second capture reads what the first one has put in. -/
theorem captures_not_compose :
    (⟨1, [Glyph.ofText "x"]⟩ : Capture).resolveText
        ((⟨0, [Glyph.ofText "$R1"]⟩ : Capture).resolveText (Glyph.ofText "$R0")) ≠
      (⟨0, [Glyph.ofText "$R1", Glyph.ofText "x"]⟩ : Capture).resolveText (Glyph.ofText "$R0") := by
  decide +kernel

end Capture

end Kitchen.Reference

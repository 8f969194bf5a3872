import Mathlib.Data.List.Basic
import Kitchen.Reference

namespace Kitchen.Reference

open Text (Glyph)

-- A part of a text: a glyph, or a reference with the backslashes in front of it.
inductive Token where
  | glyph (g : Glyph)
  | reference (k : Nat) (digits : List Glyph) (m : Nat)
  deriving DecidableEq, Repr

-- The parts of a text; `k` backslashes have just been read.
def tokens (k : Nat) : List Glyph → List Token
  | [] => (slashes k).map .glyph
  | .char '\\' :: rest => tokens (k + 1) rest
  | .char '$' :: .char 'R' :: rest =>
    match h : numeral? rest with
    | none => (slashes k ++ [Glyph.char '$', .char 'R']).map .glyph ++ tokens 0 rest
    | some (digits, m, more) =>
      have := numeral?_length h
      .reference k digits m :: tokens 0 more
  | x :: rest => (slashes k ++ [x]).map .glyph ++ tokens 0 rest
termination_by cs => cs.length
decreasing_by all_goals simp_wf; try omega

theorem tokens_bare {k : Nat} {rest : List Glyph} (num : numeral? rest = none) :
    tokens k (.char '$' :: .char 'R' :: rest) =
      (slashes k ++ [Glyph.char '$', .char 'R']).map .glyph ++ tokens 0 rest := by
  rw [tokens]
  split
  · rfl
  · next some => rw [num] at some; cases some

theorem tokens_reference {k m : Nat} {rest digits more : List Glyph}
    (num : numeral? rest = some (digits, m, more)) :
    tokens k (.char '$' :: .char 'R' :: rest) = .reference k digits m :: tokens 0 more := by
  rw [tokens]
  split
  · next none => rw [num] at none; cases none
  · next some =>
    rw [num] at some
    cases some
    rfl

def Capture.fillToken (c : Capture) : Token → List Glyph
  | .glyph x => [x]
  | .reference k digits m => c.fill k digits m

variable {c : Capture} {cs rest more digits : List Glyph} {k m : Nat} {x : Glyph}

theorem numeral?_eq_none : numeral? cs = none ↔ ∀ x rest, cs = x :: rest → x.digit? = none := by
  cases cs with
  | nil => simp [numeral?]
  | cons d rest => simp [numeral?]

theorem numeral?_one (value : x.digit? = some m) (apart : numeral? rest = none) :
    numeral? (x :: rest) = some ([x], m, rest) := by
  cases rest with
  | nil => simp [numeral?, value]
  | cons y more =>
    have none : y.digit? = none := numeral?_eq_none.mp apart y more rfl
    simp [numeral?, value, none]

/-- A number has two digits, or one and no further one after it. -/
theorem numeral?_eq_some (h : numeral? cs = some (digits, m, more)) :
    cs = digits ++ more ∧ (digits.length = 1 → numeral? more = none) ∧
      ∀ w, (digits.length = 1 → numeral? w = none) →
        numeral? (digits ++ w) = some (digits, m, w) := by
  cases cs with
  | nil => cases h
  | cons d rest =>
    obtain ⟨v, value, h⟩ := Option.map_eq_some_iff.mp h
    cases rest with
    | nil =>
      cases h
      exact ⟨rfl, fun _ => rfl, fun w apart => numeral?_one value (apart rfl)⟩
    | cons e rest =>
      cases next : e.digit? with
      | none =>
        simp only [next] at h
        cases h
        have ends : numeral? (e :: rest) = none := by simp [numeral?, next]
        exact ⟨rfl, fun _ => ends, fun w apart => numeral?_one value (apart rfl)⟩
      | some n =>
        simp only [next] at h
        cases h
        refine ⟨rfl, fun two => absurd two (by simp), fun w _ => ?_⟩
        simp [numeral?, value, next]

theorem tokens_slashes (j k : Nat) (w : List Glyph) : tokens j (slashes k ++ w) = tokens (j + k) w := by
  induction k generalizing j with
  | zero => rfl
  | succ k ih =>
    rw [slashes, List.replicate_succ, List.cons_append, tokens, ← slashes, ih, Nat.succ_add_eq_add_succ]

theorem tokens_plain (noslash : x ≠ .char '\\') (noref : x = .char '$' → ∀ more, rest ≠ .char 'R' :: more) :
    tokens k (x :: rest) = (slashes k ++ [x]).map .glyph ++ tokens 0 rest := by
  rw [tokens]
  · intro rfl
    exact noslash rfl
  · rintro more rfl rfl
    exact noref rfl more rfl

/-- What no reference has in it are read glyph by glyph. -/
theorem tokens_inert {v : List Glyph} (clean : .char '$' ∉ v ∧ .char '\\' ∉ v) (some : v ≠ []) (w : List Glyph) :
    tokens k (v ++ w) = (slashes k ++ v).map .glyph ++ tokens 0 w := by
  induction v generalizing k with
  | nil => exact absurd rfl some
  | cons x v ih =>
    have noslash : x ≠ .char '\\' := by
      rintro rfl
      exact clean.2 List.mem_cons_self
    have nodollar : x ≠ .char '$' := by
      rintro rfl
      exact clean.1 List.mem_cons_self
    rw [List.cons_append, tokens_plain noslash fun dollar => absurd dollar nodollar]
    cases v with
    | nil => rfl
    | cons y v =>
      have rest : .char '$' ∉ y :: v ∧ .char '\\' ∉ y :: v :=
        ⟨fun mem => clean.1 (List.mem_cons_of_mem _ mem), fun mem => clean.2 (List.mem_cons_of_mem _ mem)⟩
      rw [ih rest (List.cons_ne_nil y v)]
      simp [slashes]

theorem Capture.resolve_bare (num : numeral? rest = none) :
    c.resolve k (.char '$' :: .char 'R' :: rest) = slashes k ++ .char '$' :: .char 'R' :: c.resolve 0 rest := by
  rw [Capture.resolve]
  split
  · rfl
  · next some => rw [num] at some; cases some

theorem Capture.resolve_reference (num : numeral? rest = some (digits, m, more)) :
    c.resolve k (.char '$' :: .char 'R' :: rest) = c.fill k digits m ++ c.resolve 0 more := by
  rw [Capture.resolve]
  split
  · next none => rw [num] at none; cases none
  · next some =>
    rw [num] at some
    cases some
    rfl

/-- Filling is reading, and then filling part by part. -/
theorem Capture.resolve_eq (c : Capture) (k : Nat) (cs : List Glyph) :
    c.resolve k cs = (tokens k cs).flatMap c.fillToken := by
  have plain : ∀ xs : List Glyph, (xs.map Token.glyph).flatMap c.fillToken = xs := by
    intro xs
    rw [List.flatMap_map]
    exact List.flatMap_singleton' xs
  fun_induction tokens k cs with
  | case1 k =>
    rw [Capture.resolve, plain]
  | case2 k rest ih =>
    rw [Capture.resolve, ih]
  | case3 k rest num ih =>
    rw [Capture.resolve_bare num, List.flatMap_append, plain, ih]
    simp
  | case4 k rest digits m more num _ ih =>
    rw [Capture.resolve_reference num, List.flatMap_cons, ih]
    rfl
  | case5 k x rest noslash noref ih =>
    rw [Capture.resolve, List.flatMap_append, plain, ih]
    · simp
    · exact noslash
    · exact noref

-- A part of what becomes of a text: a glyph, or the captured text with a number.
inductive Slot where
  | glyph (g : Glyph)
  | captured (m : Nat)
  deriving DecidableEq, Repr

structure Span where
  first : Nat
  count : Nat

namespace Span

def Has (s : Span) (m : Nat) : Prop := s.first ≤ m ∧ m < s.first + s.count

instance (s : Span) (m : Nat) : Decidable (s.Has m) :=
  inferInstanceAs (Decidable (_ ∧ _))

def slots (s : Span) : Token → List Slot
  | .glyph x => [.glyph x]
  | .reference k digits m =>
    if s.Has m then
      if k % 2 = 1 then (slashes (k - 1) ++ .char '$' :: .char 'R' :: digits).map .glyph
      else (slashes k).map .glyph ++ [.captured m]
    else (slashes k ++ .char '$' :: .char 'R' :: digits).map .glyph

-- What becomes of a text, but for the captured texts; `k` backslashes have just been read.
def outline (s : Span) (k : Nat) (cs : List Glyph) : List Slot :=
  (tokens k cs).flatMap s.slots

@[simp]
theorem outline_nil (s : Span) : s.outline 0 [] = [] := by
  rw [outline, tokens]
  rfl

theorem outline_slashes (s : Span) (k : Nat) (cs : List Glyph) :
    s.outline 0 (slashes k ++ cs) = s.outline k cs := by
  rw [outline, tokens_slashes, Nat.zero_add, outline]

theorem outline_glyphs {s : Span} {xs rest : List Glyph} (read : tokens k cs = xs.map .glyph ++ tokens 0 rest) :
    s.outline k cs = xs.map .glyph ++ s.outline 0 rest := by
  rw [outline, read, List.flatMap_append, List.flatMap_map, List.map_eq_flatMap]
  rfl

theorem outline_reference {s : Span} (num : numeral? rest = some (digits, m, more)) :
    s.outline k (.char '$' :: .char 'R' :: rest) = s.slots (.reference k digits m) ++ s.outline 0 more := by
  rw [outline, tokens_reference num, List.flatMap_cons, outline]

theorem slots_even (s : Span) (k : Nat) (digits : List Glyph) (m : Nat) :
    s.slots (.reference (k + 2) digits m) =
      .glyph (.char '\\') :: .glyph (.char '\\') :: s.slots (.reference k digits m) := by
  have two : (slashes (k + 2)) = .char '\\' :: .char '\\' :: slashes k := rfl
  simp only [slots, Nat.add_mod_right, two]
  split
  · split
    · next odd =>
      obtain ⟨j, rfl⟩ : ∃ j, k = j + 1 := ⟨k - 1, by omega⟩
      rfl
    · rfl
  · rfl

/-- Two backslashes more stay in front. -/
theorem outline_even (s : Span) (k : Nat) (cs : List Glyph) :
    s.outline (k + 2) cs = .glyph (.char '\\') :: .glyph (.char '\\') :: s.outline k cs := by
  unfold outline
  have two : ∀ k, slashes (k + 2) = .char '\\' :: .char '\\' :: slashes k := fun _ => rfl
  fun_induction tokens k cs with
  | case1 k =>
    rw [tokens, two, List.map_cons, List.map_cons]
    rfl
  | case2 k rest ih => rw [tokens, ih]
  | case3 k rest num ih =>
    rw [tokens_bare num, two]
    rfl
  | case4 k rest digits m more num _ ih =>
    rw [tokens_reference num, List.flatMap_cons, slots_even]
    rfl
  | case5 k x rest noslash noref ih =>
    rw [tokens, two]
    · rfl
    · exact noslash
    · exact noref

/-- Backslashes in front of what is put in go with the text before it. -/
theorem outline_slashes_even (s : Span) {k : Nat} (even : k % 2 = 0) (cs : List Glyph) :
    s.outline k cs = (slashes k).map .glyph ++ s.outline 0 cs := by
  obtain ⟨j, rfl⟩ : ∃ j, k = 2 * j := ⟨k / 2, by omega⟩
  induction j with
  | zero => rfl
  | succ j ih =>
    rw [Nat.mul_succ, outline_even, ih (by omega)]
    rfl

end Span

namespace Capture

def span (c : Capture) : Span := ⟨c.base, c.texts.length⟩

-- The captured text, where the capture has it.
def put (c : Capture) : Slot → List Glyph
  | .glyph x => [x]
  | .captured m => (c.text? m).getD []

theorem text?_isSome : (c.text? m).isSome ↔ c.span.Has m := by
  unfold text? span Span.Has
  split
  · simp only [Option.isSome_none, Bool.false_eq_true, false_iff]
    omega
  · rw [Option.isSome_iff_exists]
    simp only [List.getElem?_eq_some_iff]
    constructor
    · rintro ⟨_, here, -⟩
      omega
    · rintro ⟨above, below⟩
      exact ⟨_, by omega, rfl⟩

theorem flatMap_put_glyph (c : Capture) (xs : List Glyph) : (xs.map Slot.glyph).flatMap c.put = xs := by
  rw [List.flatMap_map]
  exact List.flatMap_singleton' xs

theorem slots_put (c : Capture) (t : Token) : (c.span.slots t).flatMap c.put = c.fillToken t := by
  cases t with
  | glyph x => rfl
  | reference k digits m =>
    have has : c.span.Has m ↔ (c.text? m).isSome := text?_isSome.symm
    simp only [Span.slots, fillToken, fill, has]
    cases text : c.text? m with
    | none => exact c.flatMap_put_glyph _
    | some v =>
      dsimp only
      rw [if_pos Option.isSome_some]
      split
      · exact c.flatMap_put_glyph _
      · rw [List.flatMap_append, flatMap_put_glyph, List.flatMap_singleton, put, text, Option.getD_some]

/-- Filling is drawing up an outline and putting the captured texts in. -/
theorem resolve_outline (c : Capture) (k : Nat) (cs : List Glyph) :
    c.resolve k cs = (c.span.outline k cs).flatMap c.put := by
  rw [resolve_eq, Span.outline, List.flatMap_assoc]
  exact List.flatMap_congr fun t _ => (c.slots_put t).symm

end Capture

def Span.Covers (s : Span) (slots : List Slot) : Prop :=
  ∀ m, .captured m ∈ slots → s.Has m

theorem Span.outline_covers (s : Span) (k : Nat) (cs : List Glyph) : s.Covers (s.outline k cs) := by
  intro m mem
  obtain ⟨t, -, mem⟩ := List.mem_flatMap.mp mem
  have glyphs : ∀ xs : List Glyph, .captured m ∉ xs.map Slot.glyph := by
    intro xs mem
    obtain ⟨x, -, eq⟩ := List.mem_map.mp mem
    cases eq
  cases t with
  | glyph x => exact absurd mem (glyphs [x])
  | reference k digits m' =>
    simp only [slots] at mem
    split at mem
    · next has =>
      split at mem
      · exact absurd mem (glyphs _)
      · rcases List.mem_append.mp mem with mem | mem
        · exact absurd mem (glyphs _)
        · cases List.mem_singleton.mp mem
          exact has
    · exact absurd mem (glyphs _)

def Slot.letter (f : Nat → Glyph) : Slot → Glyph
  | .glyph x => x
  | .captured m => f m

/-- Parts can be told apart by the glyphs that are captured. -/
theorem Slot.letter_unique {x y : Slot} (same : ∀ f, x.letter f = y.letter f) : x = y := by
  have moves : ∀ (g : Glyph) (m : Nat), ¬∀ f, (Slot.glyph g).letter f = (Slot.captured m).letter f := by
    intro g m same
    have a := same fun _ => .char 'a'
    have b := same fun _ => .char 'b'
    exact absurd (a.symm.trans b) (by simp [letter])
  cases x with
  | glyph g =>
    cases y with
    | glyph h => exact congrArg _ (same fun _ => .char 'a')
    | captured m => exact absurd same (moves g m)
  | captured m =>
    cases y with
    | glyph h => exact absurd (fun f => (same f).symm) (moves h m)
    | captured n =>
      by_cases eq : m = n
      · rw [eq]
      · have apart := same fun i => if i = m then .char 'a' else .char 'b'
        simp [letter, Ne.symm eq] at apart

def Span.letters (s : Span) (f : Nat → Glyph) : Capture :=
  ⟨s.first, (List.range s.count).map fun i => [f (s.first + i)]⟩

theorem Span.letters_put {s : Span} {slots : List Slot} (f : Nat → Glyph) (covers : s.Covers slots) :
    slots.flatMap (s.letters f).put = slots.map (Slot.letter f) := by
  rw [← List.flatMap_singleton' (slots.map _), List.flatMap_map]
  refine List.flatMap_congr fun x mem => ?_
  cases x with
  | glyph g => rfl
  | captured m =>
    have has := covers m mem
    unfold Span.Has at has
    have place : m - s.first < s.count := by omega
    have number : s.first + (m - s.first) = m := by omega
    simp [Capture.put, Capture.text?, letters, Slot.letter, place, number, Nat.not_lt.mpr has.1]

/-- Outlines that become the same whatever is captured are the same. -/
theorem outline_unique {s : Span} {xs ys : List Slot} (covers : s.Covers xs) (covers' : s.Covers ys)
    (same : ∀ texts : List (List Glyph), texts.length = s.count →
      xs.flatMap (Capture.mk s.first texts).put = ys.flatMap (Capture.mk s.first texts).put) :
    xs = ys := by
  have letters : ∀ f, xs.map (Slot.letter f) = ys.map (Slot.letter f) := by
    intro f
    have eq := same (s.letters f).texts (by simp [Span.letters])
    rwa [← Span.letters_put f covers, ← Span.letters_put f covers']
  have long : xs.length = ys.length := by
    have eq := congrArg List.length (letters fun _ => .char 'a')
    simpa using eq
  refine List.ext_getElem long fun i here here' => Slot.letter_unique fun f => ?_
  have eq := congrArg (·[i]?) (letters f)
  simpa [here, here'] using eq

end Kitchen.Reference

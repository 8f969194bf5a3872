import Kitchen.Proofs.Number.Numeral
import Kitchen.Text.Blank

namespace Kitchen

variable {c : Char} {cs ds : List Char}

/-- The digits of the first of the scripts. -/
theorem Text.digit?_isDigit (digit : c.isDigit) : Text.digit? c = some (c.toNat - 48) := by
  have range : 48 ≤ c.toNat ∧ c.toNat < 58 := by
    simp only [Char.isDigit, Bool.and_eq_true, decide_eq_true_eq, UInt32.le_iff_toNat_le] at digit
    exact ⟨digit.1, Nat.lt_succ_of_le digit.2⟩
  have found : Text.zeros.find? (fun z => z ≤ c.toNat && c.toNat < z + 10) = some 0x30 := by
    apply List.find?_cons_of_pos
    simpa using range
  unfold Text.digit?
  rw [found]
  rfl

theorem Text.isBlank_isDigit (digit : c.isDigit) : Text.isBlank c = false := by
  simp only [Char.isDigit, Bool.and_eq_true, decide_eq_true_eq, UInt32.le_iff_toNat_le] at digit
  have above : 48 ≤ c.toNat := digit.1
  have below : c.toNat ≤ 57 := digit.2
  -- The first four bounds of the blanks are below the digits, and the fifth one is above them.
  have beyond : ¬ c.toNat < 0x9 ∧ ¬ c.toNat < 0xe ∧ ¬ c.toNat < 0x1c ∧ ¬ c.toNat < 0x21 ∧
      c.toNat < 0x85 := by omega
  obtain ⟨first, second, third, fourth, fifth⟩ := beyond
  unfold Text.isBlank Text.within Text.blankBounds
  simp only [Text.within.go, if_neg first, if_neg second, if_neg third, if_neg fourth, if_pos fifth,
    Bool.not_false, Bool.not_true]

/-- A text without blanks is left as it is. -/
theorem Text.strip_of_none (none : ∀ c ∈ cs, Text.isBlank c = false) : Text.strip cs = cs := by
  have kept : ∀ l : List Char, (∀ c ∈ l, Text.isBlank c = false) → l.dropWhile Text.isBlank = l := by
    intro l none
    cases l with
    | nil => rfl
    | cons c l => rw [List.dropWhile_cons, none c List.mem_cons_self, if_neg Bool.false_ne_true]
  unfold Text.strip
  rw [kept cs none, kept cs.reverse fun c mem => none c (List.mem_reverse.mp mem), List.reverse_reverse]

namespace Number

theorem digitRun_digits (digits : Digits (c :: ds)) :
    digitRun? (c :: ds) = some ((c :: ds).map (·.toNat - 48)) := by
  induction ds generalizing c with
  | nil =>
    have digit := Text.digit?_isDigit (digits c List.mem_cons_self)
    rw [digitRun?, digit]
    rfl
  | cons d ds ih =>
    obtain ⟨first, rest⟩ := List.forall_mem_cons.mp digits
    -- The character after the first digit is another digit, and no underscore.
    have other : d ≠ '_' := by
      rintro rfl
      cases rest '_' List.mem_cons_self
    rw [digitRun?, Text.digit?_isDigit first, ih rest]
    · rfl
    · exact List.cons_ne_nil d ds
    · intro ds' same
      exact other (List.cons.inj same).1

theorem ofDigits_digitsOf (n : Nat) : ofDigits ((digitsOf n).map (·.toNat - 48)) = n := by
  unfold ofDigits
  rw [List.foldl_map]
  exact Nat.ofDigitChars_ten_toDigits

theorem digitsOf_length {n k : Nat} (pos : 0 < k) : (digitsOf n).length ≤ k ↔ n < tenTo k :=
  Nat.length_toDigits_le_iff (by decide) pos

theorem Short.length {n : Int} (short : Short n) : (digitsOf n.natAbs).length ≤ digitLimit :=
  (digitsOf_length (by decide)).mpr short

/-- The sign is split off, and what is left are the digits. -/
theorem splitSign_toString (n : Int) :
    splitSign (toString n).toList = (decide (n < 0), digitsOf n.natAbs) := by
  rw [toList_toString]
  by_cases negative : n < 0
  · rw [if_pos negative, decide_eq_true negative]
    rfl
  · obtain ⟨c, ds, first⟩ := digitsOf_cons n.natAbs
    have digit : c.isDigit := digits_digitsOf n.natAbs c (first ▸ List.mem_cons_self)
    rw [if_neg negative, decide_eq_false negative, first]
    unfold splitSign
    split
    · next same =>
      obtain ⟨rfl, -⟩ := List.cons.inj same
      cases digit
    · next same =>
      obtain ⟨rfl, -⟩ := List.cons.inj same
      cases digit
    · rfl

/-- What is written for a short number is read as the number. -/
theorem readInteger_toString {n : Int} (short : Short n) : readInteger (toString n).toList = .ok n := by
  obtain ⟨c, ds, first⟩ := digitsOf_cons n.natAbs
  have digits : Digits (c :: ds) := first ▸ digits_digitsOf n.natAbs
  have run : digitRun? (digitsOf n.natAbs) = some ((digitsOf n.natAbs).map (·.toNat - 48)) := by
    rw [first]
    exact digitRun_digits digits
  have few : ¬ digitLimit < ((digitsOf n.natAbs).map (·.toNat - 48)).length := by
    rw [List.length_map]
    exact Nat.not_lt.mpr short.length
  unfold readInteger
  rw [splitSign_toString]
  dsimp only
  rw [run]
  dsimp only
  rw [if_neg few, ofDigits_digitsOf, signed_natAbs]

/-- There is no blank in what is written for a number. -/
theorem strip_toString (n : Int) : Text.strip (toString n).toList = (toString n).toList := by
  have none : ∀ c ∈ digitsOf n.natAbs, Text.isBlank c = false :=
    fun c mem => Text.isBlank_isDigit (digits_digitsOf n.natAbs c mem)
  apply Text.strip_of_none
  rw [toList_toString]
  split
  · exact List.forall_mem_cons.mpr ⟨by decide, none⟩
  · exact none

end Number

end Kitchen

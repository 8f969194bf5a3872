import Kitchen.Number.Shortest
import Kitchen.Proofs.Number.Digits

namespace Kitchen.Number

def Digits (ds : List Char) : Prop :=
  ∀ c ∈ ds, c.isDigit

inductive Whole : List Char → Prop where
  | zero : Whole ['0']
  | digits {c : Char} {ds : List Char} (nonzero : c ≠ '0') (digits : Digits (c :: ds)) :
      Whole (c :: ds)

inductive Fraction : List Char → Prop where
  | none : Fraction []
  | digits {c : Char} {ds : List Char} (digits : Digits (c :: ds)) : Fraction ('.' :: c :: ds)

inductive Exponent : List Char → Prop where
  | none : Exponent []
  | digits {sign c : Char} {ds : List Char} (signed : sign = '-' ∨ sign = '+')
      (digits : Digits (c :: ds)) : Exponent ('e' :: sign :: c :: ds)

-- The text of a float without its sign: whole part, fraction and exponent, not both of these empty.
inductive Decimal : List Char → Prop where
  | parts {w f e : List Char} (whole : Whole w) (fraction : Fraction f) (exponent : Exponent e)
      (more : f ≠ [] ∨ e ≠ []) : Decimal (w ++ (f ++ e))

theorem Digits.append {ds es : List Char} (h : Digits ds) (h' : Digits es) : Digits (ds ++ es) := by
  intro c mem
  rcases List.mem_append.mp mem with early | late
  · exact h c early
  · exact h' c late

theorem digits_zeros (n : Nat) : Digits (List.replicate n '0') := by
  intro c mem
  rw [List.eq_of_mem_replicate mem]
  decide

theorem digits_digitsOf (n : Nat) : Digits (digitsOf n) :=
  fun _ mem => Nat.isDigit_of_mem_toDigits (by decide) (by decide) mem

theorem digitsOf_cons (n : Nat) : ∃ c ds, digitsOf n = c :: ds :=
  List.exists_cons_of_ne_nil Nat.toDigits_ne_nil

/-- The first digit of a number is zero for zero alone. -/
theorem digitsOf_pos {n : Nat} (pos : 0 < n) : ∃ c ds, digitsOf n = c :: ds ∧ c ≠ '0' := by
  -- All but the last digit are those of a tenth, so the first one is seen when no tenth is left.
  induction n using Nat.strongRecOn with
  | _ n ih =>
    by_cases one : n < 10
    · refine ⟨n.digitChar, [], Nat.toDigits_of_lt_base one, ?_⟩
      have nonzero : ∀ n < 10, 0 < n → n.digitChar ≠ '0' := by decide
      exact nonzero n one pos
    · have split : digitsOf n = digitsOf (n / 10) ++ [(n % 10).digitChar] :=
        Nat.toDigits_of_base_le (by decide) (Nat.le_of_not_lt one)
      obtain ⟨c, ds, first, nonzero⟩ := ih (n / 10) (by omega) (by omega)
      refine ⟨c, ds ++ [(n % 10).digitChar], ?_, nonzero⟩
      rw [split, first, List.cons_append]

theorem whole_digitsOf (n : Nat) : Whole (digitsOf n) := by
  rcases Nat.eq_zero_or_pos n with rfl | pos
  · exact .zero
  · obtain ⟨c, ds, first, nonzero⟩ := digitsOf_pos pos
    have digits := digits_digitsOf n
    rw [first] at digits ⊢
    exact .digits nonzero digits

theorem Whole.cons {w : List Char} (whole : Whole w) : ∃ c ds, w = c :: ds ∧ c.isDigit := by
  cases whole with
  | zero => exact ⟨'0', [], rfl, by decide⟩
  | @digits c ds _ digits => exact ⟨c, ds, rfl, digits c List.mem_cons_self⟩

/-- A whole number is written as its digits, after a minus sign if it is negative. -/
theorem toList_toString (n : Int) :
    (toString n).toList = if n < 0 then '-' :: digitsOf n.natAbs else digitsOf n.natAbs := by
  unfold digitsOf
  rw [Int.toString_eq_repr, Int.repr_eq_if]
  by_cases negative : n < 0
  · have size : (-n).toNat = n.natAbs := by omega
    rw [if_pos negative, if_neg (Int.not_le.mpr negative), String.toList_append, Nat.toList_repr,
      size]
    rfl
  · have size : n.toNat = n.natAbs := by omega
    rw [if_neg negative, if_pos (Int.not_lt.mp negative), Nat.toList_repr, size]

theorem signed_natAbs (n : Int) : signed (decide (n < 0)) n.natAbs = n := by
  unfold signed
  by_cases negative : n < 0
  · rw [if_pos (decide_eq_true negative)]
    omega
  · rw [if_neg (by simpa using negative)]
    omega

/-- No number but zero rounds to no steps at all. -/
theorem nearestOnGrid_pos {m d : Nat} {q place : Int} (pos : 0 < m)
    (found : nearestOnGrid? m q place = some d) : 0 < d := by
  unfold nearestOnGrid? at found
  extract_lets step unit value low high fits down up at found
  have unit_pos : 0 < unit := Nat.mul_pos (twoTo_pos _) (tenTo_pos _)
  have low_pos : 0 < low := by
    apply Nat.mul_pos _ unit_pos
    split <;> omega
  -- What is found fits, and nothing below the lower bound does.
  have fits_pos : ∀ {n}, fits n = true → 0 < n := by
    intro n here
    rcases Nat.eq_zero_or_pos n with rfl | n_pos
    · exfalso
      simp only [fits] at here
      split at here
      · simp only [Nat.zero_mul, Bool.and_eq_true, decide_eq_true_eq] at here
        omega
      · simp only [Nat.zero_mul, Bool.and_eq_true, decide_eq_true_eq] at here
        omega
    · exact n_pos
  split at found
  · next lower upper =>
    cases found
    split
    · exact fits_pos lower
    · exact fits_pos upper
  · next lower upper =>
    obtain rfl := Option.some.inj found
    exact fits_pos lower
  · next lower upper =>
    obtain rfl := Option.some.inj found
    exact fits_pos upper
  · cases found

theorem shortest_pos {m : Nat} (q : Int) (pos : 0 < m) : 0 < (shortest m q).1 := by
  unfold shortest
  extract_lets top
  cases found : (List.range 17).findSome? fun i : Nat =>
    (nearestOnGrid? m q (top - i)).map (·, top - i) with
  | none => exact Nat.mul_pos pos (twoTo_pos _)
  | some best =>
    -- The grid on which the digits were found does not matter.
    obtain ⟨i, -, here⟩ := List.exists_of_findSome?_eq_some found
    obtain ⟨d, grid, rfl⟩ := Option.map_eq_some_iff.mp here
    exact nearestOnGrid_pos pos grid

/-- Zeros can be taken away from the end of digits that do not start with one. -/
theorem dropZeros_cons {c : Char} {ds : List Char} (nonzero : c ≠ '0') (digits : Digits (c :: ds)) :
    ∃ ds', ((c :: ds).reverse.dropWhile (· = '0')).reverse = c :: ds' ∧ Digits (c :: ds') := by
  have kept : ((c :: ds).reverse.dropWhile (· = '0')).reverse =
      c :: (ds.reverse.dropWhile (· = '0')).reverse := by
    rw [List.reverse_cons, List.dropWhile_append]
    split
    · next nothing =>
      rw [List.isEmpty_iff.mp nothing]
      simp [nonzero]
    · rw [List.reverse_append]
      rfl
  refine ⟨_, kept, ?_⟩
  intro d mem
  apply digits d
  rcases List.mem_cons.mp mem with rfl | later
  · exact List.mem_cons_self
  · have there := (List.dropWhile_sublist _).subset (List.mem_reverse.mp later)
    exact List.mem_cons_of_mem c (List.mem_reverse.mp there)

theorem scientific_cons {m : Nat} (q : Int) (pos : 0 < m) :
    ∃ c ds, (scientific m q).1 = c :: ds ∧ c ≠ '0' ∧ Digits (c :: ds) := by
  obtain ⟨c, ds, first, nonzero⟩ := digitsOf_pos (shortest_pos q pos)
  have digits := digits_digitsOf (shortest m q).1
  rw [first] at digits
  obtain ⟨ds', kept, digits'⟩ := dropZeros_cons nonzero digits
  refine ⟨c, ds', ?_, nonzero, digits'⟩
  rw [← kept, ← first]
  rfl

theorem exponentText_exponent (e : Int) : Exponent ('e' :: exponentText e) := by
  obtain ⟨c, ds, first⟩ := digitsOf_cons e.natAbs
  have digits := digits_digitsOf e.natAbs
  have signed : (if e < 0 then '-' else '+') = '-' ∨ (if e < 0 then '-' else '+') = '+' := by
    split
    · exact .inl rfl
    · exact .inr rfl
  have padded : Digits ('0' :: c :: ds) := by
    rw [first] at digits
    exact List.forall_mem_cons.mpr ⟨by decide, digits⟩
  unfold exponentText
  rw [first] at digits ⊢
  dsimp only
  by_cases short : (c :: ds).length < 2
  · rw [if_pos short]
    exact .digits signed padded
  · rw [if_neg short]
    exact .digits signed digits

theorem layOut_decimal {c : Char} {ds : List Char} (place : Int) (nonzero : c ≠ '0')
    (digits : Digits (c :: ds)) : Decimal (layOut (c :: ds) place) := by
  unfold layOut
  split
  · split
    · -- Below one: zeros stand between the point and the digits.
      have fraction : Digits (List.replicate (-place - 1).toNat '0' ++ c :: ds) :=
        (digits_zeros _).append digits
      obtain ⟨d, more, first⟩ := List.exists_cons_of_ne_nil
        (List.append_ne_nil_of_right_ne_nil (List.replicate (-place - 1).toNat '0')
          (List.cons_ne_nil c ds))
      rw [first] at fraction
      rw [List.cons_append, List.cons_append, first]
      have decimal : Decimal (['0'] ++ ('.' :: d :: more ++ [])) :=
        .parts .zero (.digits fraction) .none (.inl (List.cons_ne_nil _ _))
      rw [List.append_nil] at decimal
      exact decimal
    · -- The point stands among the digits, or after them and as many zeros as are wanting.
      extract_lets intDigits padded fraction
      have all : Digits padded := digits.append (digits_zeros _)
      have front : padded.take intDigits = c :: (ds ++ List.replicate (intDigits - (c :: ds).length)
          '0').take place.toNat := rfl
      have whole : Whole (padded.take intDigits) := by
        have some : Digits (padded.take intDigits) := fun d mem => all d (List.mem_of_mem_take mem)
        rw [front] at some ⊢
        exact .digits nonzero some
      have rest : Digits fraction := fun d mem => all d (List.mem_of_mem_drop mem)
      have decimal : ∀ {d more}, Digits (d :: more) →
          Decimal (padded.take intDigits ++ '.' :: d :: more) := by
        intro d more digits'
        have parts := Decimal.parts whole (.digits digits') .none (.inl (List.cons_ne_nil _ _))
        rw [List.append_nil] at parts
        exact parts
      cases left : fraction with
      | nil => exact decimal (List.forall_mem_singleton.mpr (by decide))
      | cons d more =>
        rw [left] at rest
        exact decimal rest
  · -- With an exponent, one digit stands before the point.
    extract_lets fraction
    have first : Whole [c] :=
      .digits nonzero (List.forall_mem_singleton.mpr (digits c List.mem_cons_self))
    have rest : Digits fraction := fun d mem => digits d (List.mem_cons_of_mem c mem)
    have exponent := exponentText_exponent place
    have more := List.cons_ne_nil 'e' (exponentText place)
    cases left : fraction with
    | nil => exact .parts first .none exponent (.inr more)
    | cons d ds' =>
      rw [left] at rest
      exact .parts first (.digits rest) exponent (.inr more)

/-- The text of a finite float is a decimal numeral, with a minus sign if it is negative. -/
theorem floatText_decimal {x : Float} {negative : Bool} {m : Nat} {q : Int}
    (finite : parts x = .finite negative m q) :
    ∃ cs, Decimal cs ∧ (floatText x).toList = if negative then '-' :: cs else cs := by
  unfold floatText
  rw [finite]
  dsimp only
  rw [String.toList_ofList]
  rcases Nat.eq_zero_or_pos m with rfl | pos
  · rw [if_pos rfl]
    have digit : Digits ['0'] := List.forall_mem_singleton.mpr (by decide)
    exact ⟨_, .parts .zero (.digits digit) .none (.inl (List.cons_ne_nil _ _)), rfl⟩
  · obtain ⟨c, ds, first, nonzero, digits⟩ := scientific_cons q pos
    rw [if_neg (Nat.ne_of_gt pos), first]
    exact ⟨_, layOut_decimal (scientific m q).2 nonzero digits, rfl⟩

end Kitchen.Number

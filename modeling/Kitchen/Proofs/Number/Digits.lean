import Kitchen.Number.Binary
import Kitchen.Number.Integer

namespace Kitchen

theorem Text.digit_lt {c : Char} {n : Nat} (h : Text.digit? c = some n) : n < 10 := by
  unfold Text.digit? at h
  obtain ⟨z, found, rfl⟩ := Option.map_eq_some_iff.mp h
  have within := List.find?_some found
  simp only [Bool.and_eq_true, decide_eq_true_eq] at within
  omega

namespace Number

theorem twoTo_pos (n : Nat) : 0 < twoTo n :=
  Nat.pow_pos (by decide)

theorem tenTo_pos (n : Nat) : 0 < tenTo n :=
  Nat.pow_pos (by decide)

theorem tenTo_succ (n : Nat) : tenTo (n + 1) = 10 * tenTo n :=
  Nat.pow_succ'

theorem tenTo_le {m n : Nat} (h : m ≤ n) : tenTo m ≤ tenTo n :=
  Nat.pow_le_pow_right (by decide) h

-- A whole number with no more digits than are converted.
def Short (n : Int) : Prop :=
  n.natAbs < tenTo digitLimit

theorem short_zero : Short 0 :=
  tenTo_pos digitLimit

theorem short_of_lt {n : Int} {k : Nat} (bound : n.natAbs < tenTo k) (few : k ≤ digitLimit) : Short n :=
  Nat.lt_of_lt_of_le bound (tenTo_le few)

theorem short_one : Short 1 :=
  short_of_lt (show 1 < tenTo 1 by decide) (by decide)

theorem foldl_lt {ds : List Nat} (digits : ∀ d ∈ ds, d < 10) (n : Nat) :
    ds.foldl (fun n d => 10 * n + d) n < (n + 1) * tenTo ds.length := by
  induction ds generalizing n with
  | nil => exact Nat.lt_of_lt_of_eq (Nat.lt_succ_self n) (Nat.mul_one (n + 1)).symm
  | cons d ds ih =>
    have first : d < 10 := digits d List.mem_cons_self
    have rest := ih (fun d mem => digits d (List.mem_cons_of_mem _ mem)) (10 * n + d)
    rw [List.foldl_cons, List.length_cons]
    calc ds.foldl (fun n d => 10 * n + d) (10 * n + d)
        < (10 * n + d + 1) * tenTo ds.length := rest
      _ ≤ (n + 1) * 10 * tenTo ds.length := Nat.mul_le_mul_right _ (by omega)
      _ = (n + 1) * tenTo (ds.length + 1) := by rw [tenTo_succ, Nat.mul_assoc]

theorem ofDigits_lt {ds : List Nat} (digits : ∀ d ∈ ds, d < 10) : ofDigits ds < tenTo ds.length := by
  have bound := foldl_lt digits 0
  rw [Nat.zero_add, Nat.one_mul] at bound
  exact bound

/-- A number is short if it has as few digits as are converted, whatever its sign. -/
theorem short_signed {negative : Bool} {n k : Nat} (bound : n < tenTo k) (few : k ≤ digitLimit) :
    Short (signed negative n) := by
  have same : (signed negative n).natAbs = n := by
    unfold signed
    split
    · exact (Int.natAbs_neg _).trans (Int.natAbs_natCast n)
    · exact Int.natAbs_natCast n
  rw [← same] at bound
  exact short_of_lt bound few

theorem digitRun_lt {cs : List Char} {ds : List Nat} (h : digitRun? cs = some ds) :
    ∀ d ∈ ds, d < 10 := by
  -- The runs with one digit, with an underscore after the first one, and with another digit there.
  induction cs using digitRun?.induct generalizing ds with
  | case1 => cases h
  | case2 c =>
    rw [digitRun?] at h
    obtain ⟨d, digit, rfl⟩ := Option.map_eq_some_iff.mp h
    exact List.forall_mem_singleton.mpr (Text.digit_lt digit)
  | case3 c rest ih =>
    rw [digitRun?] at h
    obtain ⟨d, digit, h⟩ := Option.bind_eq_some_iff.mp h
    obtain ⟨ds', run, h⟩ := Option.bind_eq_some_iff.mp h
    cases h
    exact List.forall_mem_cons.mpr ⟨Text.digit_lt digit, ih run⟩
  | case4 c rest other more ih =>
    rw [digitRun?] at h
    · obtain ⟨d, digit, h⟩ := Option.bind_eq_some_iff.mp h
      obtain ⟨ds', run, h⟩ := Option.bind_eq_some_iff.mp h
      cases h
      exact List.forall_mem_cons.mpr ⟨Text.digit_lt digit, ih run⟩
    · exact other
    · exact more

theorem readInteger_short {cs : List Char} {n : Int} (read : readInteger cs = .ok n) : Short n := by
  unfold readInteger at read
  dsimp only at read
  split at read
  · cases read
  · next ds run =>
    split at read
    · cases read
    · next few =>
      cases read
      exact short_signed (ofDigits_lt (digitRun_lt run)) (Nat.le_of_not_lt few)

end Number

end Kitchen

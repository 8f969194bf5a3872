import Mathlib.Data.List.Forall2

namespace Kitchen

/-- What succeeds has succeeded in its first step, and goes on with what came of it. -/
theorem bind_ok {ε α β : Type} {x : Except ε α} {f : α → Except ε β} {b : β}
    (h : x >>= f = .ok b) : ∃ a, x = .ok a ∧ f a = .ok b := by
  cases x with
  | error e => cases h
  | ok a => exact ⟨a, rfl, h⟩

/-- What fails has failed in its first step, or with what came of it. -/
theorem bind_error {ε α β : Type} {x : Except ε α} {f : α → Except ε β} {e : ε}
    (h : x >>= f = .error e) : x = .error e ∨ ∃ a, x = .ok a ∧ f a = .error e := by
  cases x with
  | error e' =>
    cases h
    exact .inl rfl
  | ok a => exact .inr ⟨a, rfl, h⟩

theorem ok_of_toOption {ε α : Type} {x : Except ε α} {a : α} (h : x.toOption = some a) : x = .ok a := by
  cases x with
  | error e => cases h
  | ok b => exact congrArg Except.ok (Option.some.inj h)

theorem mapError_error {ε ε' α : Type} {x : Except ε α} {f : ε → ε'} {e' : ε'}
    (h : x.mapError f = .error e') : ∃ e, x = .error e ∧ f e = e' := by
  cases x with
  | error e => exact ⟨e, rfl, Except.error.inj h⟩
  | ok a => cases h

theorem mapError_ok {ε ε' α : Type} {x : Except ε α} {f : ε → ε'} {a : α}
    (h : x.mapError f = .ok a) : x = .ok a := by
  cases x with
  | error e => cases h
  | ok b => exact congrArg Except.ok (Except.ok.inj h)

theorem mapM_error {ε α β : Type} {f : α → Except ε β} {xs : List α} {e : ε}
    (h : xs.mapM f = .error e) : ∃ x ∈ xs, f x = .error e := by
  induction xs with
  | nil => cases h
  | cons x xs ih =>
    rw [List.mapM_cons] at h
    rcases bind_error h with first | ⟨y, -, h⟩
    · exact ⟨x, List.mem_cons_self, first⟩
    · rcases bind_error h with rest | ⟨ys, -, h⟩
      · obtain ⟨x', later, failed⟩ := ih rest
        exact ⟨x', List.mem_cons_of_mem x later, failed⟩
      · cases h

/-- What comes of a list that was gone through comes of its items, in their order. -/
theorem mapM_forall₂ {ε α β : Type} {f : α → Except ε β} {xs : List α} {ys : List β}
    (h : xs.mapM f = .ok ys) : List.Forall₂ (fun x y => f x = .ok y) xs ys := by
  induction xs generalizing ys with
  | nil =>
    cases h
    exact .nil
  | cons x xs ih =>
    rw [List.mapM_cons] at h
    obtain ⟨y, first, h⟩ := bind_ok h
    obtain ⟨ys', rest, h⟩ := bind_ok h
    cases h
    exact .cons first (ih rest)

/-- A list that was gone through came to something at each of its items. -/
theorem mapM_each {ε α β : Type} {f : α → Except ε β} {xs : List α} {ys : List β}
    (h : xs.mapM f = .ok ys) : ∀ x ∈ xs, ∃ y ∈ ys, f x = .ok y := by
  have all := mapM_forall₂ h
  clear h
  induction all with
  | nil => exact fun x mem => absurd mem List.not_mem_nil
  | @cons x y xs ys first _ ih =>
    intro z mem
    rcases List.mem_cons.mp mem with rfl | later
    · exact ⟨y, List.mem_cons_self, first⟩
    · obtain ⟨w, there, same⟩ := ih z later
      exact ⟨w, List.mem_cons_of_mem y there, same⟩

theorem mapM_ok {ε α β : Type} {f : α → Except ε β} {xs : List α} {ys : List β}
    (h : xs.mapM f = .ok ys) : ∀ y ∈ ys, ∃ x ∈ xs, f x = .ok y := by
  have all := mapM_forall₂ h
  clear h
  induction all with
  | nil => exact fun y mem => absurd mem List.not_mem_nil
  | @cons x y xs ys first _ ih =>
    intro z mem
    rcases List.mem_cons.mp mem with rfl | later
    · exact ⟨x, List.mem_cons_self, first⟩
    · obtain ⟨w, there, same⟩ := ih z later
      exact ⟨w, List.mem_cons_of_mem x there, same⟩

end Kitchen

import Kitchen.Proofs.Larder.Basic
import Mathlib.Data.List.Nodup

namespace Kitchen

open Run

namespace Larder

variable {capture : Reference.Capture} {l l' l₁ l₂ : Larder} {refs : List Nat} {args : List Arg} {r : Nat}

-- The references in arguments were filled in, and nothing was changed but the maps among them.
structure Fills (capture : Reference.Capture) (l : Larder) (args args' : List Arg) (l' : Larder) : Prop where
  slips : l'.slips = l.slips
  maps : ∀ c ∉ cellsOf args, l'.maps c = l.maps c
  slipCount : l'.slipCount = l.slipCount
  mapCount : l'.mapCount = l.mapCount
  cells : cellsOf args' = cellsOf args
  changes : Changed (fun s => ∃ c ∈ cellsOf args, s = .cell c) l l'
  values : args'.map l'.value = (args.map l.value).map capture.resolveValue

theorem resolveValue_map (capture : Reference.Capture) (es : List (Value × Value)) :
    capture.resolveValue (.map es) = .map ((fillNeedle? capture es).getD es) := by
  simp only [Reference.Capture.resolveValue, fillNeedle?]
  cases Reference.textOf? (.map es) <;> rfl

theorem fillArg_fills (capture : Reference.Capture) (l : Larder) (a : Arg) :
    Fills capture l [a] [(l.fillArg capture a).1] (l.fillArg capture a).2 := by
  cases a with
  | plain v => exact ⟨rfl, fun _ _ => rfl, rfl, rfl, rfl, .of_eq rfl, rfl⟩
  | apart c =>
    have resolved := resolveValue_map capture (l.maps c)
    cases needle : fillNeedle? capture (l.maps c) with
    | none =>
      have kept : l.fillArg capture (.apart c) = (.apart c, l) := by simp only [fillArg, needle]
      rw [needle] at resolved
      rw [kept]
      exact ⟨rfl, fun _ _ => rfl, rfl, rfl, rfl, .of_eq rfl, congrArg ([·]) resolved.symm⟩
    | some es =>
      have filled : l.fillArg capture (.apart c) = (.apart c, l.putMap c es) := by
        simp only [fillArg, needle]
      have put : (l.putMap c es).maps c = es := Function.update_self _ _ _
      rw [needle] at resolved
      rw [filled]
      refine ⟨rfl, ?_, rfl, rfl, rfl, ⟨[.cell c], rfl, ?_⟩, ?_⟩
      · intro c' other
        exact Function.update_of_ne (List.ne_of_not_mem_cons other) _ _
      · intro s mem
        exact ⟨c, List.mem_singleton_self c, List.mem_singleton.mp mem⟩
      · change [Value.map ((l.putMap c es).maps c)] = [capture.resolveValue (.map (l.maps c))]
        rw [put, resolved]
        rfl

theorem Fills.cons {a a' : Arg} {args' : List Arg} (head : Fills capture l [a] [a'] l₁)
    (rest : Fills capture l₁ args args' l₂) (apart : (cellsOf [a]).Disjoint (cellsOf args)) :
    Fills capture l (a :: args) (a' :: args') l₂ where
  slips := rest.slips.trans head.slips
  maps c other := by
    rw [cellsOf_cons, List.mem_append] at other
    rw [rest.maps c fun mem => other (.inr mem), head.maps c fun mem => other (.inl mem)]
  slipCount := rest.slipCount.trans head.slipCount
  mapCount := rest.mapCount.trans head.mapCount
  cells := by rw [cellsOf_cons, cellsOf_cons a, head.cells, rest.cells]
  changes := by
    rw [cellsOf_cons]
    refine (head.changes.mono ?_).trans (rest.changes.mono ?_)
    · rintro s ⟨c, among, same⟩
      exact ⟨c, List.mem_append_left _ among, same⟩
    · rintro s ⟨c, among, same⟩
      exact ⟨c, List.mem_append_right _ among, same⟩
  values := by
    -- The first argument shares no map with the others, so filling in one leaves the others alone.
    have first : [a'].map l₂.value = [a'].map l₁.value := by
      refine values_congr fun c mem => rest.maps c fun there => ?_
      rw [head.cells] at mem
      exact apart mem there
    have others : args.map l₁.value = args.map l.value :=
      values_congr fun c mem => head.maps c fun here => apart here mem
    have value := List.singleton_inj.mp (first.trans head.values)
    rw [List.map_cons, rest.values, others, value]
    rfl

theorem fillArgs_fills (capture : Reference.Capture) (l : Larder) (nodup : (cellsOf args).Nodup) :
    Fills capture l args (l.fillArgs capture args).1 (l.fillArgs capture args).2 := by
  induction args generalizing l with
  | nil => exact ⟨rfl, fun _ _ => rfl, rfl, rfl, rfl, .of_eq rfl, rfl⟩
  | cons a args ih =>
    rw [cellsOf_cons] at nodup
    obtain ⟨-, rest, apart⟩ := List.nodup_append'.mp nodup
    exact (fillArg_fills capture l a).cons (ih (l.fillArg capture a).2 rest) apart

theorem fill_resolves (capture : Reference.Capture) (l : Larder) (each : (l.cells r).Nodup) :
    l.Spares [r] (l.fill capture r) ∧
      (l.fill capture r).operation r = Machine.resolveArgs capture (l.operation r) := by
  have flag : (l.operation r).disabled = (l.slips r).form.disabled := rfl
  unfold fill Machine.resolveArgs
  rw [flag]
  by_cases disabled : (l.slips r).form.disabled = true
  · rw [if_pos disabled, if_pos disabled]
    exact ⟨.refl _ _, rfl⟩
  · rw [if_neg disabled, if_neg disabled]
    have fills := fillArgs_fills capture l each
    generalize l.fillArgs capture (l.slips r).args = filled at fills
    obtain ⟨args, l₁⟩ := filled
    have slip : (l₁.putArgs r args).slips r = { l.slips r with args } := by
      rw [← fills.slips]
      exact Function.update_self _ _ _
    refine ⟨⟨?_, ?_, ?_, Nat.le_of_eq fills.slipCount.symm, Nat.le_of_eq fills.mapCount.symm, ?_⟩, ?_⟩
    · intro r' _ other
      rw [← fills.slips]
      exact Function.update_of_ne (List.ne_of_not_mem_cons other) _ _
    · exact fun c _ other => fills.maps c (other r (List.mem_singleton_self r))
    · intro r' mem
      obtain rfl := List.mem_singleton.mp mem
      refine Eq.trans ?_ fills.cells
      exact congrArg (fun slip => cellsOf (Slip.args slip)) slip
    · refine (fills.changes.mono ?_).trans ⟨[.slip r], rfl, ?_⟩
      · rintro s ⟨c, among, rfl⟩
        exact .inl ⟨r, List.mem_singleton_self r, among⟩
      · intro s mem
        rw [List.mem_singleton.mp mem]
        exact .inl (List.mem_singleton_self r)
    · have read : (l₁.putArgs r args).operation r = { (l.slips r).form with args := args.map l₁.value } := by
        unfold operation
        rw [slip]
        rfl
      exact read.trans (congrArg (fun vs => { (l.slips r).form with args := vs }) fills.values)

/-- Tidy operations become what filling the references in each of them makes of it. -/
theorem fillAll_resolves (capture : Reference.Capture) (l : Larder) (tidy : l.Tidy refs) :
    l.Spares refs (l.fillAll capture refs) ∧
      refs.map (l.fillAll capture refs).operation =
        (refs.map l.operation).map (Machine.resolveArgs capture) := by
  induction refs generalizing l with
  | nil => exact ⟨.refl _ _, rfl⟩
  | cons r refs ih =>
    have here : r ∈ r :: refs := List.mem_cons_self
    have later : refs.Sublist (r :: refs) := List.sublist_cons_self r refs
    have other : r ∉ refs := (List.nodup_cons.mp tidy.nodup).1
    have differs : ∀ r' ∈ refs, r' ≠ r := fun r' mem same => other (same ▸ mem)
    obtain ⟨first, resolved⟩ := fill_resolves capture l (tidy.each r here)
    have first' : l.Spares (r :: refs) (l.fill capture r) :=
      first.mono (List.cons_subset.mpr ⟨here, List.nil_subset _⟩) tidy.slips
    have tidy' := tidy.spared first'
    obtain ⟨rest, others⟩ := ih (l.fill capture r) (tidy'.sublist later)
    have rest' : (l.fill capture r).Spares (r :: refs) _ := rest.mono later.subset tidy'.slips
    refine ⟨first'.trans rest', ?_⟩
    -- An operation that is filled in before or after another one shares no map with it.
    have kept := rest.operation (tidy'.slips r here) other (tidy'.maps r here) fun r' mem =>
      tidy'.apart r here r' (later.subset mem) (differs r' mem).symm
    have before : refs.map (l.fill capture r).operation = refs.map l.operation := by
      apply List.map_congr_left
      intro r' mem
      have among := later.subset mem
      refine first.operation (tidy.slips r' among) (fun same => differs r' mem (List.mem_singleton.mp same))
        (tidy.maps r' among) fun r₁ mem₁ => ?_
      obtain rfl := List.mem_singleton.mp mem₁
      exact tidy.apart r' among r₁ here (differs r' mem)
    rw [before] at others
    change (Larder.fillAll capture (l.fill capture r) refs).operation r :: _ = _ :: _
    rw [kept, resolved]
    exact congrArg (_ :: ·) others

end Larder

end Kitchen

import Kitchen.Proofs.Run.Amid
import Kitchen.Proofs.Run.Captures

/-!
Two lists, one after the other. Where nothing in the first list leads out of it and nothing is captured in
it, a run of both goes as a run of the first one, and, if this comes to its end, goes on as a run of the
second one on the dish that the first one has left.
-/
namespace Kitchen.Run

namespace Machine

variable {start start' i j : Int} {op : Operation} {n : Nat} {m m' k k' : Machine} {pre post : List Operation}

/-- An operation that has nothing to do with what stands after its list leaves the run where it is. -/
theorem Acts.still (acts : m.Acts i op (.ok j) k) (contained : Contained.Op post op) (more : post ≠ []) :
    j = i := by
  generalize hr : Except.ok j = r at acts
  cases acts with
  | produced ordinary get made =>
    cases hr
    rfl
  | @enacted p v d d' deed primitive other get decided =>
    cases hr
    have stays := Deed.stays_of_decided contained primitive decided
    cases deed with
    | leap label place => exact stays.elim
    | finish => exact absurd stays more
    | _ => rfl
  | _ => cases hr

/-- A run of a list that is left at its end only does not come past it. -/
theorem Passes.within (contained : ∀ post, Contained post m.ops) (passes : Passes 0 m n i k) :
    i ≤ m.ops.length := by
  induction passes with
  | begins => exact Int.natCast_nonneg _
  | skips earlier here disabled ih =>
    have length : m.ops.length = _ := (places.passes trivial earlier).ops.length_eq
    have within := opAt_lt here
    omega
  | @dispatches n i j k k' op earlier ready onward ih =>
    have inv := places.passes trivial earlier
    have front := inv.front (Int.le_refl 0)
    have length : m.ops.length = k.ops.length := inv.ops.length_eq
    have within := opAt_lt ready.here
    rcases (rounds_iff.mpr onward).onward with
      ⟨op', here, disabled, rfl, -⟩ | ⟨op', j', k₁, ready', completes, rfl, -⟩
    · omega
    · cases completes with
      | acts acts =>
        have stays := ((contained [op']).akin inv.ops).op (opAt_mem ready'.here) ready'.enabled
        have still := acts.still stays (List.cons_ne_nil _ _)
        omega
      | serves fork serves =>
        generalize hr : Except.ok j' = r at serves
        cases serves with
        | @joined v d d' s h get cut served set =>
          cases hr
          -- The last tranche came no further than what the Fork runs, which lies ahead in the list.
          have far := Split.serveAll_reach regular_run served
          obtain ⟨separator, delimiter, ignoring, more, w, parts, -, -, -, rfl⟩ := split_ok cut
          have ahead := (k.enter i op').forkBody_length i d (by omega)
          have size : (k.enter i op').ops.length = k.ops.length := rfl
          dsimp only at far
          omega
        | _ => cases hr

/-- Where a mute run comes by, it has captured nothing itself. -/
theorem Passes.silent (mute : Mute m.ops) (passes : Passes start m n i k) : Collects start m [] i k := by
  induction passes with
  | begins => exact .begins
  | skips earlier here disabled ih => exact .skips ih here disabled
  | @dispatches n i j k k' op earlier ready onward ih =>
    have silent := (mute.akin (places.passes trivial earlier).ops).silent (opAt_mem ready.here) ready.enabled
    have collects := Collects.dispatches ih ready onward
    rw [captured_other silent] at collects
    exact collects

/-- A mute run publishes nothing, and neither do its tranches. -/
theorem mute_publications (mute : Mute m.ops) :
    (m.run start).2.ledger.publications = m.ledger.publications := by
  have accounted : Accounted (Makes start m) m.ledger.publications (m.run start).2.ledger.publications :=
    accounts.run trivial
  generalize (m.run start).2.ledger.publications = ps at accounted
  cases accounted with
  | none => rfl
  | more earlier made =>
    -- What is published stands as an enabled Register in the list.
    obtain ⟨place, path, op, k, reaches, -, something, -⟩ := made
    obtain ⟨-, op₀, here, same⟩ := reaches.opAt
    have enabled : op₀.disabled = false := same.disabled.symm.trans reaches.enabled
    have register := captured_register something
    rw [same.primitive] at register
    exact absurd register (mute.silent (opAt_mem here) enabled)

/-- Where the one goes on, the other one does. -/
theorem Passes.abreast {n' : Nat} (passes : Passes start' m' n' (i + pre.length) k') (front : 0 ≤ i)
    (amid : Amid pre post k k') (contained : Contained post k.ops) {k₁ : Machine}
    (rounds : k.Rounds (Machine.run 0) 0 i (.onward j k₁)) :
    ∃ n' k₂, Passes start' m' n' (j + pre.length) k₂ ∧ Amid pre post k₁ k₂ := by
  have within : i < k.ops.length := by
    rcases rounds.onward with ⟨op, here, -⟩ | ⟨op, j', k₂, ready, -⟩
    · exact opAt_lt here
    · exact opAt_lt ready.here
  have both := rounds.amid oblivious_run start' front amid contained (.inr within)
  generalize round : k'.round (Machine.run 0) start' (i + pre.length) = t' at both
  cases both with
  | @onward _ _ k₂ related =>
    obtain ⟨n'', -, further⟩ := passes.onward round
    exact ⟨n'', k₂, further, related⟩

/-- Where a run of the list comes by, one that has come to its front comes by as far behind. -/
theorem Passes.amid (passes : Passes 0 m n i k) (contained : Contained post m.ops) {n₀ : Nat}
    {k₀ : Machine} (there : Passes start' m' n₀ pre.length k₀)
    (begun : Amid pre post (m.note (.started m.ops.length 0)) k₀) :
    ∃ n' k', Passes start' m' n' (i + pre.length) k' ∧ Amid pre post k k' := by
  -- Each round of the one run is a round of the other.
  induction passes with
  | begins => exact ⟨n₀, k₀, by rwa [Int.zero_add], begun⟩
  | skips earlier here disabled ih =>
    have inv := places.passes trivial earlier
    obtain ⟨n', k', passes', amid⟩ := ih
    exact passes'.abreast (inv.front (Int.le_refl 0)) amid (contained.akin inv.ops)
      (.skipped here disabled)
  | dispatches earlier ready onward ih =>
    have inv := places.passes trivial earlier
    obtain ⟨n', k', passes', amid⟩ := ih
    exact passes'.abreast (inv.front (Int.le_refl 0)) amid (contained.akin inv.ops) (rounds_iff.mpr onward)

/-- A run ends as far behind, if the round that ends the run of the list is one inside it or nothing stands
after it. -/
theorem Passes.ends_amid {n' : Nat} {stop : Stop} (passes : Passes 0 m' n' (i + pre.length) k')
    (finished : (m'.run 0).1 ≠ .unfinished) (front : 0 ≤ i) (amid : Amid pre post k k')
    (contained : Contained post k.ops) (ahead : post = [] ∨ i < k.ops.length) {k₁ : Machine}
    (ended : k.round (Machine.run 0) 0 i = .ended stop k₁) (inside : stop ≠ .unfinished) :
    (m'.run 0).1 = stop.shift pre.length ∧ Amid pre post k₁ (m'.run 0).2 := by
  have rounds := rounds_iff.mpr ended
  have both := rounds.amid oblivious_run 0 front amid contained ahead
  generalize round : k'.round (Machine.run 0) 0 (i + pre.length) = t' at both
  cases both with
  | ended related =>
    have shifted : stop.shift pre.length ≠ .unfinished := by
      cases stop with
      | unfinished => exact absurd rfl inside
      | _ => exact Stop.noConfusion
    rw [passes.ends finished round shifted]
    exact ⟨rfl, related⟩

/-- Where a mute list has been run and nothing else, a new run of the list after it goes on from there. -/
theorem Amid.after {ops : List Operation} {dish : Dish} (amid : Amid [] post k k') (mute : Mute ops)
    (passes : Passes 0 (fresh ops dish none) n i k) (silent : k.ledger.publications = [])
    (agrees : k'.ledger.Agrees) :
    Amid k.ops [] ((fresh post k.dish none).note (.started post.length 0)) k' := by
  have numbers := (passes.silent mute).numbers
  have publications : k'.ledger.publications = [] := by
    rw [amid.ledger.publications, silent]
    rfl
  have registers : k'.ledger.registers = [] := by
    rw [agrees, publications]
    rfl
  refine ⟨?_, amid.dish, amid.offset.trans numbers.1, amid.addressable.trans numbers.2,
    rfl, amid.ledger.free', registers, publications⟩
  rw [amid.ops, List.nil_append, List.append_nil]
  rfl

/-- A run of both lists ends with the first one, or comes to where it is left and the second one begins. -/
theorem run_append_cases {ops ops' : List Operation} (dish : Dish)
    (contained : ∀ post, Contained post ops) (mute : Mute ops) (straight : Straight (ops ++ ops')) :
    let first := (fresh ops dish none).run 0
    let whole := fresh (ops ++ ops') dish none
    (first.1 ≠ .at ops.length ∧ (whole.run 0).1 = first.1 ∧ Amid [] ops' first.2 (whole.run 0).2) ∨
      first.1 = .at ops.length ∧ ∃ pre n k', pre.length = ops.length ∧ Passes 0 whole n pre.length k' ∧
        Amid pre [] ((fresh ops' first.2.dish none).note (.started ops'.length 0)) k' := by
  intro first whole
  have finished : first.1 ≠ .unfinished := straight_run (contained []).straight
  have ran : (fresh ops dish none).run 0 = (first.1, first.2) := rfl
  obtain ⟨n, i, k, passes, ended⟩ := run_passes ran finished
  have inv := places.passes trivial passes
  have front : 0 ≤ i := inv.front (Int.le_refl 0)
  have length : ops.length = k.ops.length := inv.ops.length_eq
  -- The run of both stands beside that of the first list from the beginning up to its last round.
  have begun : Amid [] ops' ((fresh ops dish none).note (.started ops.length 0))
      (whole.note (.started (ops ++ ops').length 0)) := ⟨rfl, rfl, rfl, rfl, rfl, rfl, rfl, rfl⟩
  obtain ⟨n', k', passes', amid⟩ := passes.amid (contained ops') .begins begun
  by_cases early : i < k.ops.length
  · left
    obtain ⟨stop, related⟩ := passes'.ends_amid (straight_run straight) front amid
      ((contained ops').akin inv.ops) (.inr early) ended finished
    have stop : (whole.run 0).1 = first.1.shift 0 := stop
    refine ⟨?_, stop.trans (Stop.shift_zero _), related⟩
    intro complete
    rw [complete] at ended
    rcases (rounds_iff.mpr ended).stopped with ⟨-, beyond⟩ | ⟨here, -⟩ <;> omega
  · right
    have within : i ≤ ops.length := passes.within contained
    have here : i + ([] : List Operation).length = k.ops.length := by
      rw [List.length_nil]
      omega
    have completed : k.Rounds (Machine.run 0) 0 i _ := .completed (by omega)
    rw [completed.eq] at ended
    obtain ⟨complete, left⟩ := Turn.ended.inj ended
    have silent : k.ledger.publications = [] := by
      have noted := k.ledger.note_publications .completed fun _ => Event.noConfusion
      have published : first.2.ledger.publications = [] := mute_publications mute
      rw [← left] at published
      exact noted.symm.trans published
    have agrees : k'.ledger.Agrees := (growth.passes trivial passes').agrees rfl
    rw [here] at passes'
    rw [← complete, ← left, length]
    exact ⟨rfl, k.ops, n', k', rfl, passes', amid.after mute passes silent agrees⟩

/-- Lists compose. Let nothing in two lists pause or jump, and let the first one capture nothing, finish
nowhere and have a Merge after each Fork. If a run of the first one comes to its end, a run of both ends
as a run of the second one does on the dish that the first one has left: at a place that lies behind by
the length of the first list, with the same dish and captured texts, and with the same publications at
places as far behind. If it stops before its end or breaks, a run of both does so in the same way at the
same place, with the same dish, and nothing is captured. -/
theorem run_append (ops ops' : List Operation) (dish : Dish) (unpaused : Unpaused (ops ++ ops'))
    (straight : Straight (ops ++ ops')) (mute : Mute ops) (closed : Closed ops) :
    let first := (fresh ops dish none).run 0
    let second := (fresh ops' first.2.dish none).run 0
    let whole := (fresh (ops ++ ops') dish none).run 0
    ((∃ p, first.1 = .at p ∧ 0 ≤ p ∧ p ≤ ops.length) ∨
      ∃ b, first.1 = .broken b ∧ 0 ≤ b.place ∧ b.place < ops.length) ∧
    ((∃ p, second.1 = .at p ∧ 0 ≤ p ∧ p ≤ ops'.length) ∨
      ∃ b, second.1 = .broken b ∧ 0 ≤ b.place ∧ b.place < ops'.length) ∧
    (first.1 = .at ops.length →
      whole.1 = second.1.shift ops.length ∧ whole.2.dish = second.2.dish ∧
      whole.2.ledger.registers = second.2.ledger.registers ∧
      whole.2.ledger.publications = second.2.ledger.publications.map (.shift ops.length)) ∧
    (first.1 ≠ .at ops.length →
      whole.1 = first.1 ∧ whole.2.dish = first.2.dish ∧ whole.2.ledger.registers = [] ∧
      whole.2.ledger.publications = []) := by
  intro first second whole
  have straight₁ : Straight ops := straight.subset (List.subset_append_left ops ops')
  have straight₂ : Straight ops' := straight.subset (List.subset_append_right ops ops')
  have contained₁ : ∀ post, Contained post ops := fun post =>
    ⟨unpaused.subset (List.subset_append_left ops ops'), straight₁, .inr ⟨mute, closed⟩⟩
  have contained₂ : Contained [] ops' :=
    ⟨unpaused.subset (List.subset_append_right ops ops'), straight₂, .inl rfl⟩
  refine ⟨straight_stops straight₁ rfl, straight_stops straight₂ rfl, ?_⟩
  rcases run_append_cases dish contained₁ mute straight with
    ⟨early, stop, amid⟩ | ⟨complete, pre, n, k', length, passes, begun⟩
  · have amid : Amid [] ops' first.2 whole.2 := amid
    have silent : first.2.ledger.publications = [] := mute_publications mute
    have publications : whole.2.ledger.publications = [] := by
      rw [amid.ledger.publications, silent]
      rfl
    have registers : whole.2.ledger.registers = [] := by
      have agrees : whole.2.ledger.Agrees := (growth.run trivial).agrees rfl
      rw [agrees, publications]
      rfl
    exact ⟨fun complete => absurd complete early, fun _ => ⟨stop, amid.dish, registers, publications⟩⟩
  · -- From the boundary on, the run of both stands beside that of the second list up to its last round.
    have finished : second.1 ≠ .unfinished := straight_run straight₂
    have ran : (fresh ops' first.2.dish none).run 0 = (second.1, second.2) := rfl
    obtain ⟨n₂, i, k, passes₂, ended⟩ := run_passes ran finished
    have inv := places.passes trivial passes₂
    obtain ⟨n₃, k₃, passes₃, amid⟩ := passes₂.amid contained₂ passes begun
    obtain ⟨stop, related⟩ := passes₃.ends_amid (straight_run straight) (inv.front (Int.le_refl 0)) amid
      (contained₂.akin inv.ops) (.inl rfl) ended finished
    have related : Amid pre [] second.2 whole.2 := related
    have publications := related.ledger.publications
    rw [length] at stop publications
    exact ⟨fun _ => ⟨stop, related.dish, related.ledger.registers, publications⟩,
      fun early => absurd complete early⟩

def reversing : List Operation :=
  [⟨"Fork", [.text " ", .text ",", .bool false], "string", "string", false, false, none⟩,
    ⟨"Reverse", [.text "Character"], "string", "string", false, false, some .reverse⟩,
    ⟨"Merge", [], "string", "string", false, false, none⟩]

def capturing : List Operation :=
  [⟨"To Upper case", [], "string", "string", false, false, some .toUpperCase⟩,
    ⟨"Register", [.text "^(.)", .bool true, .bool false], "string", "string", false, false, none⟩]

theorem run_append_capturing :
    let dish : Dish := ⟨.text "ab cd", "string"⟩
    let whole := (fresh (reversing ++ capturing) dish none).run 0
    Unpaused (reversing ++ capturing) ∧ Straight (reversing ++ capturing) ∧ Mute reversing ∧
      Closed reversing ∧ whole.1 = .at 5 ∧ whole.2.dish.value.same (.text "BA,DC,") ∧
      whole.2.ledger.registers = [Text.Glyph.ofText "B"] ∧
      whole.2.ledger.publications = [⟨4, 0, [Text.Glyph.ofText "B"]⟩] := by
  intro dish whole
  have unpaused : Unpaused (reversing ++ capturing) := by decide
  have straight : Straight (reversing ++ capturing) := by decide +kernel
  have mute : Mute reversing := by decide +kernel
  have closed : Closed reversing := by decide +kernel
  obtain ⟨-, -, onward, -⟩ := run_append reversing capturing dish unpaused straight mute closed
  have first : ((fresh reversing dish none).run 0).1 = .at 3 := by decide +kernel
  have second : ((fresh capturing ((fresh reversing dish none).run 0).2.dish none).run 0).1 = .at 2 ∧
      ((fresh capturing ((fresh reversing dish none).run 0).2.dish none).run 0).2.ledger.publications =
        [⟨1, 0, [Text.Glyph.ofText "B"]⟩] := by decide +kernel
  have left : ((fresh capturing ((fresh reversing dish none).run 0).2.dish none).run 0).2.dish.value.same
      (.text "BA,DC,") := by decide +kernel
  have captured : ((fresh capturing ((fresh reversing dish none).run 0).2.dish none).run
      0).2.ledger.registers = [Text.Glyph.ofText "B"] := by decide +kernel
  obtain ⟨stop, same, registers, publications⟩ := onward first
  rw [second.1] at stop
  rw [second.2] at publications
  rw [← same] at left
  exact ⟨unpaused, straight, mute, closed, stop, left, registers.trans captured, publications⟩

end Machine

end Kitchen.Run

import Kitchen.Oven
import Kitchen.Proofs.Run.Stops

/-!
Where a run goes over its limit, and where a bake says that it did. It goes over at an operation of its
own, or at a Fork one of whose tranches does. A bake reports the cursor, which only primitives move: it
names the Fork, but of an operation of its own it names no more than a place before it.
-/
namespace Kitchen.Run.Machine

variable {run : Machine → Stop × Machine} {start i j : Int} {op : Operation} {m k : Machine} {l : Int}

-- How an operation takes a run over the limit, and where the cursor stands then: the operation is one step too
-- many, and the cursor stands where it stood; or it is a Fork one of whose tranches goes over, and the cursor
-- stands at the Fork.
inductive Overruns (run : Machine → Stop × Machine) (start i : Int) (op : Operation) (m : Machine)
    (l : Int) : Int → Prop where
  | itself (goes : ¬(op.pauses ∧ i ≠ start)) (excess : m.ledger.count.exceeded? = some l) :
      Overruns run start i op m l m.frame.cursor
  | within {child : Machine} (fork : op.primitive? = some .fork) (opens : m.Opens run start i child)
      (past : (run child).1 = .overLimit l) : Overruns run start i op m l i

theorem conclude_over {halt : Halt} (concluded : m.conclude i op halt = .ended (.overLimit l) k) :
    halt = .overLimit l ∧ k = m := by
  cases halt with
  | failed f =>
    obtain ⟨stop, k', ended, ⟨p, rfl⟩ | ⟨b, rfl⟩⟩ := conclude_failed m i op f
    · rw [ended] at concluded
      cases concluded
    · rw [ended] at concluded
      cases concluded
  | overLimit l' =>
    cases concluded
    exact ⟨rfl, rfl⟩
  | _ => cases concluded

/-- Only a tranche takes a Fork over the limit once it is carried out. -/
theorem Serves.overruns (serves : m.Serves run i op (.error (.overLimit l)) k) :
    k.frame.cursor = i ∧ ∃ v d s child, m.dish.get op.input = .ok (v, d) ∧
      (m.forking i d).split op = (.ok s, d) ∧ s.Opens run m.ledger child ∧
      (run child).1 = .overLimit l := by
  generalize hr : Except.error (Halt.overLimit l) = r at serves
  cases serves with
  | halted get cut served =>
    cases hr
    -- A failure or a breakdown is no excess, so it came out of a tranche.
    rcases Split.serveAll_fatal served with ⟨f, failed⟩ | ⟨b, broken⟩ | ⟨child, opens, fatal⟩
    · cases failed
    · cases broken
    · generalize stopped : (run child).1 = stop at fatal
      cases fatal
      exact ⟨rfl, _, _, _, child, get, cut, opens, stopped⟩
  | _ => cases hr

/-- A round that ends over the limit goes over it at an enabled operation. -/
theorem Rounds.overruns (rounds : m.Rounds run start i (.ended (.overLimit l) k)) :
    ∃ op, m.opAt? i = some op ∧ op.disabled = false ∧
      Overruns run start i op m l k.frame.cursor := by
  generalize ht : Turn.ended (.overLimit l) k = t at rounds
  cases rounds with
  | exceeded here enabled goes excess =>
    cases ht
    exact ⟨_, here, enabled, .itself goes excess⟩
  | failed ready acts =>
    obtain ⟨past, -⟩ := conclude_over ht.symm
    cases past
  | halted ready fork serves =>
    obtain ⟨rfl, rfl⟩ := conclude_over ht.symm
    obtain ⟨cursor, v, d, s, child, get, cut, opens, past⟩ := serves.overruns
    rw [cursor]
    exact ⟨_, ready.here, ready.enabled, .within fork (.intro ready fork get cut opens) past⟩
  | _ => cases ht

/-- Where an operation that is carried out leaves the cursor: where it was if it is no primitive, and
otherwise at the place that the run goes on after. -/
theorem Completes.cursor (completes : m.Completes run i op j k) :
    (op.primitive? = none ∧ j = i ∧ k.frame.cursor = m.frame.cursor) ∨ k.frame.cursor = j := by
  cases completes with
  | acts acts =>
    generalize hr : Except.ok j = r at acts
    cases acts with
    | produced ordinary get made =>
      cases hr
      exact .inl ⟨ordinary, rfl, rfl⟩
    | enacted primitive other get decided =>
      cases hr
      exact .inr rfl
    | _ => cases hr
  | serves fork serves =>
    generalize hr : Except.ok j = r at serves
    cases serves with
    | joined get cut served set =>
      cases hr
      exact .inr rfl
    | _ => cases hr

-- Before a round of an execution that begins where its cursor is: the cursor is behind the place, unless
-- nothing was passed yet, and nothing between the two has moved it.
structure Trails (start : Int) (m : Machine) (i : Int) (k : Machine) : Prop where
  behind : k.frame.cursor ≤ i
  level : k.frame.cursor = i → i = start
  between : ∀ j op, k.frame.cursor < j → j < i → m.opAt? j = some op →
    op.disabled = true ∨ op.primitive? = none

/-- The cursor stays where it is while the run moves on over an operation that does not move it. -/
theorem Trails.on {k' : Machine} (trails : Trails start m i k) (same : k'.frame.cursor = k.frame.cursor)
    (still : ∀ op, m.opAt? i = some op → op.disabled = true ∨ op.primitive? = none) :
    Trails start m (i + 1) k' where
  behind := by
    have := trails.behind
    omega
  level level := by
    have := trails.behind
    omega
  between j op after before here := by
    rw [same] at after
    by_cases last : j = i
    · subst last
      exact still op here
    · exact trails.between j op after (by omega) here

theorem Passes.trails {n : Nat} (begun : m.frame.cursor = start) (passes : Passes start m n i k) :
    Trails start m i k := by
  -- What stands at a place had the same flags and the same name where the execution began.
  have first : ∀ {n i k op}, Passes start m n i k → k.opAt? i = some op → ∀ op₀,
      m.opAt? i = some op₀ → op₀.Akin op := by
    intro n i k op passes here op₀ there
    obtain ⟨op₁, there₁, same⟩ := opAt_back (places.passes trivial passes).ops here
    obtain rfl := Option.some.inj (there₁.symm.trans there)
    exact same
  induction passes with
  | begins =>
    refine ⟨Int.le_of_eq begun, fun _ => rfl, ?_⟩
    intro j op after before
    have cursor : m.frame.cursor < j := after
    omega
  | skips earlier here disabled ih =>
    refine ih.on rfl fun op₀ there => .inl ?_
    rw [← (first earlier here op₀ there).disabled, disabled]
  | @dispatches n i j k k' op earlier ready onward ih =>
    rcases (rounds_iff.mpr onward).onward with
      ⟨op', here, disabled, rfl, rfl⟩ | ⟨op', j', k₁, ready', completes, rfl, rfl⟩
    · refine ih.on rfl fun op₀ there => .inl ?_
      rw [← (first earlier here op₀ there).disabled, disabled]
    · rcases completes.cursor with ⟨ordinary, rfl, cursor⟩ | cursor
      · refine ih.on cursor fun op₀ there => .inr ?_
        rw [← (first earlier ready'.here op₀ there).primitive, ordinary]
      · -- A primitive leaves the cursor right before the place where the run goes on.
        have cursor : k₁.frame.cursor = j' := cursor
        refine ⟨by change k₁.frame.cursor ≤ j' + 1; omega, ?_, ?_⟩
        · intro level
          have level : k₁.frame.cursor = j' + 1 := level
          omega
        · intro j'' op'' after before
          have after : k₁.frame.cursor < j'' := after
          omega

/-- What a bake reports of a run over the limit: the words for it, and the place of the cursor. -/
theorem bake_over {o : Oven} {v : Value} {tag : String} {dish : Dish} {b : Bake}
    (made : Dish.make v tag = .ok dish)
    (past : (fresh o.ops dish o.limit).run 0 = (.overLimit l, k)) (baked : (o.bake v tag).1 = .ok b) :
    b.error = some (Text.Glyph.ofText (overLimitMessage l)) ∧ b.progress = k.frame.cursor := by
  unfold Oven.bake at baked
  simp only [made, past, Oven.verdict] at baked
  split at baked
  · cases baked
  · cases baked
    exact ⟨rfl, rfl⟩

/-- Where a bake says that its run went over the limit. The run ends at an enabled operation of the
recipe. If this is a Fork one of whose tranches goes over, the bake reports the place of the Fork. If the
operation is itself one step too many, the bake reports the place of its operation only if that is the
first in the recipe; otherwise it reports a place before it, from where on no primitive was carried
out. -/
theorem bake_overrun {o : Oven} {v : Value} {tag : String} {dish : Dish} {b : Bake}
    (made : Dish.make v tag = .ok dish)
    (past : (fresh o.ops dish o.limit).run 0 = (.overLimit l, k)) (baked : (o.bake v tag).1 = .ok b) :
    o.limit = some l ∧ b.error = some (Text.Glyph.ofText (overLimitMessage l)) ∧
      ∃ n i m op op₀, Passes 0 (fresh o.ops dish o.limit) n i m ∧
        m.round (Machine.run 0) 0 i = .ended (.overLimit l) k ∧
        0 ≤ i ∧ o.ops[i.toNat]? = some op₀ ∧ op₀.Akin op ∧ op.disabled = false ∧
        ((b.progress = i ∧ op.primitive? = some .fork ∧
            ∃ child, m.Opens (Machine.run 0) 0 i child ∧ (child.run 0).1 = .overLimit l) ∨
          (0 ≤ b.progress ∧ b.progress ≤ i ∧ (b.progress = i ↔ i = 0) ∧
            m.ledger.count.exceeded? = some l ∧ ¬(op.pauses ∧ i ≠ 0) ∧
            ∀ (j : Nat) op', b.progress < j → j < i → o.ops[j]? = some op' →
              op'.disabled = true ∨ op'.primitive? = none)) := by
  obtain ⟨error, progress⟩ := bake_over made past baked
  -- What stands where the last round ends stands there in the recipe, but for its references.
  obtain ⟨n, i, m, passes, ended⟩ := run_passes past Stop.noConfusion
  obtain ⟨op, here, enabled, overruns⟩ := (rounds_iff.mpr ended).overruns
  have keeps := places.passes trivial passes
  have front : 0 ≤ i := keeps.front (Int.le_refl 0)
  obtain ⟨op₀, first, same⟩ := forall₂_back keeps.ops (opAt_some front here)
  have trails : Trails 0 (fresh o.ops dish o.limit) i m := passes.trails rfl
  have inside : (fresh o.ops dish o.limit).Inside := ⟨Int.le_refl 0, Int.natCast_nonneg _⟩
  have ahead : 0 ≤ m.frame.cursor := ((cursors.passes trivial passes).2 (Int.le_refl 0) inside).1
  have limit : (fresh o.ops dish o.limit).ledger.limit = some l :=
    (limited.run trivial).2 l (congrArg Prod.fst past)
  refine ⟨limit, error, n, i, m, op, op₀, passes, ended, front, first, same, enabled, ?_⟩
  rw [progress]
  -- The bake reports the cursor: at the Fork, or else wherever the last primitive left it.
  generalize cursor : k.frame.cursor = c at overruns
  cases overruns with
  | @within child fork opens past => exact .inl ⟨rfl, fork, child, opens, past⟩
  | itself goes excess =>
    have behind := trails.behind
    refine .inr ⟨ahead, behind, ⟨trails.level, ?_⟩, excess, goes, ?_⟩
    · intro hi
      omega
    · intro j op' after before there
      apply trails.between j op' after before
      have length := (List.getElem?_eq_some_iff.mp there).1
      rw [opAt_nonneg (Int.natCast_nonneg j) (by exact Int.ofNat_lt.mpr length)]
      exact there

def forked : Oven :=
  .preheat [⟨"To Upper case", [], "string", "string", false, false, some .toUpperCase⟩,
    ⟨"Fork", [.text ",", .text ";", .bool false], "string", "string", false, false, none⟩,
    ⟨"Reverse", [.text "Character"], "string", "string", false, false, some .reverse⟩] (some 3)

/-- The second tranche goes over the limit, and the bake names the Fork. -/
theorem bake_overrun_forked : ∃ b k, Dish.make (.text "ab,cd") "string" = .ok ⟨.text "ab,cd", "string"⟩ ∧
    (forked.bake (.text "ab,cd") "string").1 = .ok b ∧
    (fresh forked.ops ⟨.text "ab,cd", "string"⟩ forked.limit).run 0 = (.overLimit 3, k) ∧
    b.error = some (Text.Glyph.ofText "Step limit of 3 operations exceeded") ∧ b.progress = 1 ∧
    ∃ (i : Int) (m : Machine), m.round (Machine.run 0) 0 i = .ended (.overLimit 3) k ∧
      b.progress ≤ i := by
  have made : Dish.make (.text "ab,cd") "string" = .ok ⟨.text "ab,cd", "string"⟩ := rfl
  have stop : ((fresh forked.ops ⟨.text "ab,cd", "string"⟩ forked.limit).run 0).1 =
      .overLimit 3 := by decide +kernel
  have progress : (forked.bake (.text "ab,cd") "string").1.toOption.map (·.progress) = some 1 := by
    decide +kernel
  have past : (fresh forked.ops ⟨.text "ab,cd", "string"⟩ forked.limit).run 0 = (.overLimit 3, _) :=
    Prod.ext stop rfl
  cases baked : (forked.bake (.text "ab,cd") "string").1 with
  | error f =>
    rw [baked] at progress
    cases progress
  | ok b =>
    have place : b.progress = 1 := by
      rw [baked] at progress
      exact Option.some.inj progress
    obtain ⟨-, error, n, i, m, op, op₀, -, ended, -, -, -, -, ⟨here, -⟩ | ⟨-, before, -⟩⟩ :=
      bake_overrun made past baked
    · exact ⟨b, _, made, rfl, past, error, place, i, m, ended, Int.le_of_eq here⟩
    · exact ⟨b, _, made, rfl, past, error, place, i, m, ended, before⟩

def brief : Oven :=
  .preheat [⟨"To Upper case", [], "string", "string", false, false, some .toUpperCase⟩,
    ⟨"Reverse", [.text "Character"], "string", "string", false, false, some .reverse⟩] (some 1)

/-- The second operation is one step too many, and the bake names the first one. -/
theorem bake_misplaced : ∃ b n m k, (brief.bake (.text "ab") "string").1 = .ok b ∧
    Passes 0 (fresh brief.ops ⟨.text "ab", "string"⟩ brief.limit) n 1 m ∧
    m.round (Machine.run 0) 0 1 = .ended (.overLimit 1) k ∧ b.progress = 0 := by
  let begun := (fresh brief.ops ⟨.text "ab", "string"⟩ brief.limit).note (.started 2 0)
  have ready : begun.Ready 0 0 _ := ⟨rfl, rfl, fun goes => goes.2 rfl, rfl⟩
  have acted : begun.Rounds (Machine.run 0) 0 0 _ := .acted ready (.produced rfl rfl rfl)
  have passes : Passes 0 _ 1 1 _ := .dispatches .begins ready acted.eq
  exact ⟨_, _, _, _, rfl, passes, rfl, rfl⟩

end Kitchen.Run.Machine

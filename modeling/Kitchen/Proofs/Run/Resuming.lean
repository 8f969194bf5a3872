import Kitchen.Proofs.Run.Cleared
import Kitchen.Proofs.Run.Stops

/-!
Pausing and resuming. A run that is taken up again wherever a pause holds it comes to the same as one run
of the list without its pauses, if nothing pauses between a Fork and its Merge.
-/
namespace Kitchen.Run

-- Between a Fork and the next Merge, or the end of the list, nothing enabled pauses.
def Sheltered (ops : List Operation) : Prop :=
  ∀ (n : Nat) (within : n < ops.length), ops[n].does .fork = true →
    Unpaused ((ops.drop (n + 1)).takeWhile fun op => !op.does .merge)

instance (ops : List Operation) : Decidable (Sheltered ops) :=
  inferInstanceAs (Decidable (∀ (n : Nat) (within : n < ops.length), ops[n].does .fork = true →
    Unpaused ((ops.drop (n + 1)).takeWhile fun op => !op.does .merge)))

namespace Sheltered

open Machine

variable {ops ops' : List Operation}

theorem akin_takeWhile (akin : OpsAkin ops ops') :
    OpsAkin (ops.takeWhile fun op => !op.does .merge) (ops'.takeWhile fun op => !op.does .merge) := by
  induction akin with
  | nil => exact .nil
  | @cons op op' rest rest' same _ ih =>
    cases merge : op.does .merge with
    | true =>
      rw [List.takeWhile_cons_of_neg (by rw [merge]; decide),
        List.takeWhile_cons_of_neg (by rw [same.does, merge]; decide)]
      exact .nil
    | false =>
      rw [List.takeWhile_cons_of_pos (by rw [merge]; rfl),
        List.takeWhile_cons_of_pos (by rw [same.does, merge]; rfl)]
      exact .cons same ih

/-- What is filled in for references pauses nothing. -/
theorem akin (sheltered : Sheltered ops) (akin : OpsAkin ops ops') : Sheltered ops' := by
  intro n within forks
  have length : ops.length = ops'.length := akin.length_eq
  -- The operations that correspond have the same flags, and do the same.
  have same : ops[n].Akin ops'[n] := akin.get (by omega) within
  rw [same.does] at forks
  have later : OpsAkin (ops.drop (n + 1)) (ops'.drop (n + 1)) := List.forall₂_drop (n + 1) akin
  exact (sheltered n (by omega) forks).akin (akin_takeWhile later)

/-- The operations of a Fork that stands in a sheltered list pause nothing. -/
theorem body {m : Machine} {i : Int} {op : Operation} {s : Split} {d : Dish}
    (sheltered : Sheltered m.ops) (front : 0 ≤ i) (here : m.opAt? i = some op) (forks : op.does .fork)
    (cut : ((m.enter i op).forking i d).split op = (.ok s, d)) : Unpaused s.body := by
  obtain ⟨n, rfl⟩ := Int.eq_ofNat_of_zero_le front
  have there : m.ops[n]? = some op := opAt_some front here
  obtain ⟨within, rfl⟩ := List.getElem?_eq_some_iff.mp there
  obtain ⟨separator, delimiter, ignoring, more, v, parts, -, -, -, rfl⟩ := split_ok cut
  have body := sheltered n within forks
  rw [← follows_nat m.ops.length n] at body
  exact body

end Sheltered

namespace Machine

variable {start i j p : Int} {op : Operation} {m k k' : Machine} {stop : Stop}

-- What comes of a run from `start` that ended with `stop` in the machine `k`, if it is taken up again wherever
-- a pause holds it.
inductive Resumed : Int → Stop → Machine → Stop → Machine → Prop where
  | rests {start : Int} {stop : Stop} {k : Machine} (rest : ∀ p, stop = .at p → ¬k.Held start p) :
      Resumed start stop k stop k
  | resumes {start p : Int} {stop : Stop} {k k' : Machine} (held : k.Held start p)
      (further : Resumed p (k.run p).1 (k.run p).2 stop k') : Resumed start (.at p) k stop k'

/-- There is but one outcome. -/
theorem Resumed.unique {stop₁ stop₂ : Stop} {k₁ k₂ : Machine} (first : Resumed start stop k stop₁ k₁)
    (second : Resumed start stop k stop₂ k₂) : stop₁ = stop₂ ∧ k₁ = k₂ := by
  -- A run that stopped is either held by a pause where it stopped, or it is not.
  induction first with
  | rests rest =>
    cases second with
    | rests => exact ⟨rfl, rfl⟩
    | resumes held => exact absurd held (rest _ rfl)
  | resumes held further ih =>
    cases second with
    | rests rest => exact absurd held (rest _ rfl)
    | resumes _ further' => exact ih further'

theorem Held.back (akin : OpsAkin m.ops k.ops) (held : k.Held start i) : m.Held start i := by
  obtain ⟨op, here, enabled, pauses, other⟩ := held
  obtain ⟨op₀, there, same⟩ := opAt_back akin here
  exact ⟨op₀, there, same.disabled.symm.trans enabled, same.pauses.symm.trans pauses, other⟩

/-- A round that no pause holds does not end at one. -/
theorem Rounds.unheld (free : ¬m.Held start i)
    (rounds : m.Rounds (Machine.run 0) start i (.ended (.at p) k)) : ¬k.Held start p := by
  intro held
  have kept : Turn.Meets (fun _ k => OpsAkin m.ops k.ops) (fun _ k => OpsAkin m.ops k.ops)
      (.ended (.at p) k) := shape.round (fun n _ => regular_run.shape n) (.refl m.ops) rounds
  have akin : OpsAkin m.ops k.ops := kept
  have held₀ : m.Held start p := held.back akin
  -- It stops behind the list, where nothing stands, or at the place that it is about.
  rcases rounds.stopped with ⟨rfl, -⟩ | ⟨rfl, -⟩
  · obtain ⟨op, here, -⟩ := held₀
    exact absurd (opAt_lt here) (Int.lt_irrefl _)
  · exact free held₀

/-- What one run of a list without its pauses comes to from a place on, a run comes to that is at the same
place and is taken up again, if each time it is granted as many rounds. -/
theorem drive_resumed {fuel more : Nat} (sheltered : Sheltered m.ops) (ahead : 0 ≤ start)
    (keeps : Keeps start m i k) (grown : m.ledger.Grows k.ledger) (cleared : k.Cleared k')
    (enough : fuel ≤ more) (granted : fuel ≤ rounds m.ops m.ledger.limit)
    (finished : (k'.drive (Machine.run 0) 0 fuel i).1 ≠ .unfinished) :
    ∃ k₁, Resumed start (k.drive (Machine.run 0) start more i).1
        (k.drive (Machine.run 0) start more i).2 (k'.drive (Machine.run 0) 0 fuel i).1 k₁ ∧
      k₁.Cleared (k'.drive (Machine.run 0) 0 fuel i).2 := by
  induction fuel generalizing start more i k k' with
  | zero => exact absurd rfl finished
  | succ fuel ih =>
    -- A round that no pause holds is one of both runs.
    have free : ∀ {start more k}, 0 ≤ start → ¬k.Held start i → Keeps start m i k →
        m.ledger.Grows k.ledger → k.Cleared k' → fuel + 1 ≤ more →
        ∃ k₁, Resumed start (k.drive (Machine.run 0) start more i).1
            (k.drive (Machine.run 0) start more i).2 (k'.drive (Machine.run 0) 0 (fuel + 1) i).1 k₁ ∧
          k₁.Cleared (k'.drive (Machine.run 0) 0 (fuel + 1) i).2 := by
      intro start more k ahead free keeps grown cleared enough
      obtain ⟨more, rfl⟩ : ∃ n, more = n + 1 := ⟨more - 1, by omega⟩
      obtain ⟨t, rounds⟩ := rounds_round (Machine.run 0) start i k
      have both : Turn.Lockstep Cleared t (k'.round (Machine.run 0) 0 i) :=
        rounds.cleared heedless_run regular_run.shape (fun op d s here forks cut =>
          (sheltered.akin keeps.ops).body (keeps.front ahead) here forks cut) free cleared
      have kept := places.round regular_run keeps rounds
      have grown' := grown.trans (rounds.grows growth.upholds_run)
      unfold drive at finished ⊢
      rw [rounds.eq]
      generalize k'.round (Machine.run 0) 0 i = t' at both finished
      cases both with
      | @ended stop k₁ k₁' related =>
        refine ⟨k₁, .rests ?_, related⟩
        rintro p rfl
        exact rounds.unheld free
      | @onward j k₁ k₁' related =>
        exact ih ahead kept grown' related (by omega) (by omega) finished
    by_cases held : k.Held start i
    · -- The run is taken up again at this place, where the pause does not hold it any more.
      obtain ⟨more, rfl⟩ : ∃ n, more = n + 1 := ⟨more - 1, by omega⟩
      have paused : k.drive (Machine.run 0) start (more + 1) i = (.at i, k.note (.paused i)) := by
        obtain ⟨op, here, enabled, pauses⟩ := held
        have rounds : k.Rounds (Machine.run 0) start i _ := .paused here enabled pauses
        rw [drive, rounds.eq]
      -- That it was paused and started is noted, and the run without pauses has no such notes.
      have begun : ((k.note (.paused i)).note (.started k.ops.length i)).Cleared k' :=
        (cleared.note_left _).note_left _
      have keeps' : Keeps i m i ((k.note (.paused i)).note (.started k.ops.length i)) :=
        ⟨id, keeps.ops⟩
      have grown' : m.ledger.Grows ((k.note (.paused i)).note (.started k.ops.length i)).ledger :=
        (grown.trans (Ledger.grows_note _ _)).trans (Ledger.grows_note _ _)
      have passed : ¬((k.note (.paused i)).note (.started k.ops.length i)).Held i i := by
        rintro ⟨op, here, enabled, pauses, other⟩
        exact other rfl
      -- It is granted as many rounds as at first: references do not change the budgets.
      have enough' : fuel + 1 ≤ rounds k.ops k.ledger.limit := by
        rw [rounds_akin keeps.ops, grown.limit]
        exact granted
      obtain ⟨k₁, resumed, related⟩ := free (keeps.front ahead) passed keeps' grown' begun enough'
      rw [paused]
      refine ⟨k₁, .resumes held ?_, related⟩
      rw [run_eq_drive]
      exact resumed
    · exact free ahead held keeps grown cleared enough

/-- Pausing and resuming is transparent. Take up a run from the front again at each pause that holds it,
in whatever state the machine is when it begins. If nothing pauses between a Fork and its Merge, this
comes to rest in one way, which is how a single run of the list without its pauses ends: with the same
stop, dish, arguments, frame, captured texts, steps and publications. The single run finishes if the
budgets of jumps are bounded or a limit is set; a run that does not finish ends in no way. -/
theorem resuming_transparent (m : Machine) (sheltered : Sheltered m.ops) :
    let single := (m.cleared m.ledger).run 0
    (Bounded m → single.1 ≠ .unfinished) ∧
    (single.1 ≠ .unfinished → ∃ k,
      (∀ stop k', Resumed 0 (m.run 0).1 (m.run 0).2 stop k' ↔ stop = single.1 ∧ k' = k) ∧
      k.dish = single.2.dish ∧ clearAll k.ops = single.2.ops ∧ k.frame = single.2.frame ∧
      k.last = single.2.last ∧ k.ledger.registers = single.2.ledger.registers ∧
      k.ledger.steps = single.2.ledger.steps ∧
      k.ledger.publications = single.2.ledger.publications) := by
  intro single
  refine ⟨?_, ?_⟩
  · intro bounded
    apply run_bounded 0
    rcases bounded with jumps | limit
    · left
      change (jumpBound (clearAll m.ops)).isSome
      rw [jumpBound_clearAll]
      exact jumps
    · exact .inr limit
  · intro finished
    -- Both are granted the same rounds, and the single run is followed round by round.
    have granted : rounds (clearAll m.ops) m.ledger.limit = rounds m.ops m.ledger.limit :=
      rounds_clearAll m.ops m.ledger.limit
    have ran : single = ((m.cleared m.ledger).note (.started (clearAll m.ops).length 0)).drive
        (Machine.run 0) 0 (rounds m.ops m.ledger.limit) 0 := by
      rw [← granted]
      exact run_eq_drive 0 (m.cleared m.ledger)
    have begun : (m.note (.started m.ops.length 0)).Cleared
        ((m.cleared m.ledger).note (.started (clearAll m.ops).length 0)) :=
      Cleared.note (.intro (.refl m.ledger)) _ _
    have keeps : Keeps 0 m 0 (m.note (.started m.ops.length 0)) := places.begins trivial
    rw [ran] at finished ⊢
    obtain ⟨k, resumed, related⟩ := drive_resumed sheltered (Int.le_refl 0) keeps
      (Ledger.grows_note _ _) begun (Nat.le_refl _) (Nat.le_refl _) finished
    rw [← run_eq_drive] at resumed
    generalize Machine.drive (Machine.run 0) 0 (rounds m.ops m.ledger.limit) 0
      ((m.cleared m.ledger).note (.started (clearAll m.ops).length 0)) = last at resumed related
    obtain ⟨stop, k'⟩ := last
    obtain ⟨same⟩ := related
    refine ⟨k, ?_, rfl, rfl, rfl, rfl, same.registers.symm, same.steps.symm, same.publications.symm⟩
    intro stop' k'
    constructor
    · intro other
      exact other.unique resumed
    · rintro ⟨rfl, rfl⟩
      exact resumed

def interrupted : Machine :=
  fresh [⟨"Label", [.text "again"], "string", "string", false, false, none⟩,
    ⟨"Reverse", [.text "Character"], "string", "string", false, true, some .reverse⟩,
    ⟨"To Upper case", [], "string", "string", false, true, some .toUpperCase⟩,
    ⟨"Jump", [.text "again", .int 1], "string", "string", false, false, none⟩]
    ⟨.text "abc", "string"⟩ none

theorem resuming_transparent_interrupted : Sheltered interrupted.ops ∧
    (interrupted.run 0).1 = .at 1 ∧ ∃ k,
      Resumed 0 (interrupted.run 0).1 (interrupted.run 0).2 (.at 4) k ∧ k.ledger.steps = 7 ∧
      k.frame.jumps = 1 := by
  have sheltered : Sheltered interrupted.ops := by decide +kernel
  have stop : ((interrupted.cleared interrupted.ledger).run 0).1 = .at 4 := by decide +kernel
  have steps : ((interrupted.cleared interrupted.ledger).run 0).2.ledger.steps = 7 := by
    decide +kernel
  have jumps : ((interrupted.cleared interrupted.ledger).run 0).2.frame.jumps = 1 := by
    decide +kernel
  obtain ⟨-, resumes⟩ := resuming_transparent interrupted sheltered
  obtain ⟨k, outcome, -, -, frame, -, -, counted, -⟩ := resumes (by rw [stop]; decide)
  refine ⟨sheltered, by decide +kernel, k, ?_, counted.trans steps, ?_⟩
  · exact (outcome (.at 4) k).mpr ⟨stop.symm, rfl⟩
  · rw [frame, jumps]

end Machine

end Kitchen.Run

import Kitchen.Proofs.Run.Depth

namespace Kitchen.Run.Machine

-- What is shown of a run round by round: `Pre start m` where it begins, `Inv start m i k` before each round, at
-- the place `i` with the machine `k`, and `Post start m stop k` where it ends.
structure Stepwise (Pre : Int → Machine → Prop) (Inv : Int → Machine → Int → Machine → Prop)
    (Post : Int → Machine → Stop → Machine → Prop) : Prop where
  begins : ∀ {start m}, Pre start m → Inv start m start (m.note (.started m.ops.length start))
  unended : ∀ {start m i k}, Inv start m i k → Post start m .unfinished k
  opens : ∀ {start m i k child}, Inv start m i k → k.Opens (Machine.run 0) start i child →
    Pre 0 child
  round : ∀ {start m i k t},
    (∀ child, k.Opens (Machine.run 0) start i child →
      Post 0 child (Machine.run 0 child).1 (Machine.run 0 child).2) →
    Inv start m i k → k.Rounds (Machine.run 0) start i t → t.Meets (Inv start m) (Post start m)

namespace Stepwise

variable {Pre : Int → Machine → Prop} {Inv : Int → Machine → Int → Machine → Prop}
  {Post : Int → Machine → Stop → Machine → Prop} {start i : Int} {m k : Machine}

theorem drive (s : Stepwise Pre Inv Post) (fuel : Nat) (inv : Inv start m i k) (keeps : Keeps start m i k)
    (inner : ∀ i k child, Keeps start m i k → k.Opens (Machine.run 0) start i child → Pre 0 child →
      Post 0 child (Machine.run 0 child).1 (Machine.run 0 child).2) :
    Post start m (k.drive (Machine.run 0) start fuel i).1
      (k.drive (Machine.run 0) start fuel i).2 := by
  induction fuel generalizing i k with
  | zero => exact s.unended inv
  | succ fuel ih =>
    -- `Keeps` is carried along for the lengths of the lists, by which the tranches are judged.
    obtain ⟨t, rounds⟩ := rounds_round (Machine.run 0) start i k
    have kept := places.round regular_run keeps rounds
    have meets := s.round (fun child opens => inner i k child keeps opens (s.opens inv opens)) inv
      rounds
    rw [Machine.drive, rounds.eq]
    cases t with
    | ended stop k' => exact meets
    | onward j k' => exact ih meets kept

/-- Runs from the front are judged by the length of their lists, which Forks shorten. -/
theorem inside (s : Stepwise Pre Inv Post) (size : Nat) (small : m.ops.length < size)
    (pre : Pre 0 m) : Post 0 m (Machine.run 0 m).1 (Machine.run 0 m).2 := by
  induction size generalizing m with
  | zero => exact absurd small (Nat.not_lt_zero _)
  | succ size ih =>
    rw [run_eq_drive]
    refine s.drive _ (s.begins pre) (places.begins trivial) ?_
    intro i k child keeps opens pre'
    have length : m.ops.length = k.ops.length := keeps.ops.length_eq
    have shorter := (opens.length regular_run.shape).2 (keeps.front (Int.le_refl 0))
    exact ih (by omega) pre'

/-- What every round keeps holds where a run ends. -/
theorem run (s : Stepwise Pre Inv Post) (pre : Pre start m) :
    Post start m (m.run start).1 (m.run start).2 := by
  -- A run that starts elsewhere may open a list as long as its own, but a tranche starts at the front.
  rw [run_eq_drive]
  refine s.drive _ (s.begins pre) (places.begins trivial) ?_
  intro i k child keeps opens pre'
  exact s.inside (child.ops.length + 1) (Nat.lt_succ_self _) pre'

end Stepwise

end Kitchen.Run.Machine

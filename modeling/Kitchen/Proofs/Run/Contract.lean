import Kitchen.Proofs.Run.Serving

namespace Kitchen.Run

-- The end of a round satisfies one predicate, and the place to go on from another one.
def Turn.Meets (onward : Int → Machine → Prop) (ended : Stop → Machine → Prop) : Turn → Prop
  | .ended stop m => ended stop m
  | .onward i m => onward i m

-- Two rounds end in the same way, or go on from the same place, with related machines.
inductive Turn.Lockstep (R : Machine → Machine → Prop) : Turn → Turn → Prop where
  | ended {stop : Stop} {m m' : Machine} (related : R m m') : Lockstep R (.ended stop m) (.ended stop m')
  | onward {i : Int} {m m' : Machine} (related : R m m') : Lockstep R (.onward i m) (.onward i m')

namespace Machine

/-- A halt meets what the machine meets that it leaves, whatever its dish. -/
theorem conclude_meets {onward : Int → Machine → Prop} {ended : Stop → Machine → Prop} {m : Machine}
    {i : Int} {op : Operation} {halt : Halt} (met : ∀ stop d, ended stop { m with dish := d }) :
    (m.conclude i op halt).Meets onward ended := by
  obtain ⟨stop, d, concluded⟩ := conclude_ended m i op halt
  rw [concluded]
  exact met stop d

def Upholds (Pre : Int → Machine → Prop) (Post : Int → Machine → Stop → Machine → Prop)
    (run : Machine → Stop × Machine) : Prop :=
  ∀ n, Pre 0 n → Post 0 n (run n).1 (run n).2

-- A contract: `Pre start m` where an execution of `m` begins, `Inv start m i k` before each round, at the place
-- `i` with the machine `k`, and `Post start m stop k` where it ends.
structure Contract (Pre : Int → Machine → Prop) (Inv : Int → Machine → Int → Machine → Prop)
    (Post : Int → Machine → Stop → Machine → Prop) : Prop where
  unbegun : ∀ {start m}, Pre start m → Post start m .unfinished m
  begins : ∀ {start m}, Pre start m → Inv start m start (m.note (.started m.ops.length start))
  unended : ∀ {start m i k}, Inv start m i k → Post start m .unfinished k
  opens : ∀ {run start m i k child}, Upholds Pre Post run → Inv start m i k →
    k.Opens run start i child → Pre 0 child
  round : ∀ {run start m i k t}, Upholds Pre Post run → Inv start m i k →
    k.Rounds run start i t → t.Meets (Inv start m) (Post start m)

namespace Contract

variable {Pre : Int → Machine → Prop} {Inv : Int → Machine → Int → Machine → Prop}
  {Post : Int → Machine → Stop → Machine → Prop}

theorem drive (c : Contract Pre Inv Post) {run : Machine → Stop × Machine}
    (upholds : Upholds Pre Post run) {start i : Int} {m k : Machine} (fuel : Nat)
    (inv : Inv start m i k) :
    Post start m (k.drive run start fuel i).1 (k.drive run start fuel i).2 := by
  induction fuel generalizing i k with
  | zero => exact c.unended inv
  | succ fuel ih =>
    obtain ⟨t, rounds⟩ := rounds_round run start i k
    have meets := c.round upholds inv rounds
    rw [Machine.drive, rounds.eq]
    cases t with
    | ended stop k' => exact meets
    | onward j k' => exact ih meets

/-- A contract that rounds keep is kept by executions, however deep Forks may be nested. -/
theorem execute (c : Contract Pre Inv Post) (depth : Nat) {start : Int} {m : Machine}
    (pre : Pre start m) :
    Post start m (m.execute depth start).1 (m.execute depth start).2 := by
  -- The Forks of an execution run their tranches one level less deep.
  induction depth generalizing start m with
  | zero => exact c.unbegun pre
  | succ depth ih =>
    have upholds : Upholds Pre Post (Machine.execute depth 0) := fun n hn => ih hn
    exact c.drive upholds _ (c.begins pre)

theorem upholds (c : Contract Pre Inv Post) (depth : Nat) :
    Upholds Pre Post (Machine.execute depth 0) :=
  fun _ pre => c.execute depth pre

theorem run (c : Contract Pre Inv Post) {start : Int} {m : Machine} (pre : Pre start m) :
    Post start m (m.run start).1 (m.run start).2 :=
  c.execute _ pre

theorem upholds_run (c : Contract Pre Inv Post) : Upholds Pre Post (Machine.run 0) :=
  fun _ pre => c.run pre

end Contract

-- An execution of `m` from `start` comes, after `n` operations were dispatched, to a place with a machine.
inductive Passes (start : Int) (m : Machine) : Nat → Int → Machine → Prop where
  | begins : Passes start m 0 start (m.note (.started m.ops.length start))
  | skips {n : Nat} {i : Int} {k : Machine} {op : Operation} (earlier : Passes start m n i k)
      (here : k.opAt? i = some op) (disabled : op.disabled = true) :
      Passes start m n (i + 1) (k.note (.skipped i op))
  | dispatches {n : Nat} {i j : Int} {k k' : Machine} {op : Operation}
      (earlier : Passes start m n i k) (ready : k.Ready start i op)
      (onward : k.round (Machine.run 0) start i = .onward j k') : Passes start m (n + 1) j k'

-- The executions that arise in an execution of `m` from `start`, at any nesting: itself, and those of the
-- tranches of every Fork that one of them comes to.
inductive Arises (start : Int) (m : Machine) : Int → Machine → Prop where
  | outermost : Arises start m start m
  | tranche {start' i : Int} {n : Nat} {m' k child : Machine} (outer : Arises start m start' m')
      (passes : Passes start' m' n i k) (opens : k.Opens (Machine.run 0) start' i child) :
      Arises start m 0 child

/-- What arises in an execution that arises in a run, arises in the run. -/
theorem Arises.inner {start start' start'' : Int} {m m' m'' : Machine}
    (outer : Arises start m start' m') (inner : Arises start' m' start'' m'') :
    Arises start m start'' m'' := by
  induction inner with
  | outermost => exact outer
  | tranche _ passes opens ih => exact .tranche ih passes opens

inductive Completes (run : Machine → Stop × Machine) (i : Int) (op : Operation) (m : Machine) (j : Int)
    (k : Machine) : Prop where
  | acts (acts : m.Acts i op (.ok j) k) : Completes run i op m j k
  | serves (fork : op.primitive? = some .fork) (serves : m.Serves run i op (.ok j) k) :
      Completes run i op m j k

/-- A round that goes on has passed over its operation, or carried it out. -/
theorem Rounds.onward {run : Machine → Stop × Machine} {start i j : Int} {m k : Machine}
    (rounds : m.Rounds run start i (.onward j k)) :
    (∃ op, m.opAt? i = some op ∧ op.disabled = true ∧ j = i + 1 ∧ k = m.note (.skipped i op)) ∨
      ∃ op j' k', m.Ready start i op ∧ (m.enter i op).Completes run i op j' k' ∧ j = j' + 1 ∧
        k = { k' with last := place? m.ops.length i } := by
  generalize ht : Turn.onward j k = t at rounds
  cases rounds with
  | @skipped op here disabled =>
    cases ht
    exact .inl ⟨op, here, disabled, rfl, rfl⟩
  | @acted op j' k' ready acts =>
    cases ht
    exact .inr ⟨op, j', k', ready, .acts acts, rfl, rfl⟩
  | @served op j' k' ready fork serves =>
    cases ht
    exact .inr ⟨op, j', k', ready, .serves fork serves, rfl, rfl⟩
  -- What halts ends the run, so that it does not go on.
  | @failed op f k₁ ready acts =>
    obtain ⟨stop, d, ended⟩ := conclude_ended k₁ i op (.failed f)
    rw [ended] at ht
    cases ht
  | @halted op halt k₁ ready fork serves =>
    obtain ⟨stop, d, ended⟩ := conclude_ended k₁ i op halt
    rw [ended] at ht
    cases ht
  | _ => cases ht

theorem Passes.onward {start i j : Int} {m k k' : Machine} {n : Nat} (passes : Passes start m n i k)
    (onward : k.round (Machine.run 0) start i = .onward j k') :
    ∃ n', n ≤ n' ∧ Passes start m n' j k' := by
  rcases (rounds_iff.mpr onward).onward with ⟨op, here, disabled, rfl, rfl⟩ | ⟨op, _, _, ready, -⟩
  · exact ⟨n, Nat.le_refl n, .skips passes here disabled⟩
  · exact ⟨n + 1, Nat.le_succ n, .dispatches passes ready onward⟩

namespace Contract

variable {Pre : Int → Machine → Prop} {Inv : Int → Machine → Int → Machine → Prop}
  {Post : Int → Machine → Stop → Machine → Prop} {start start' i : Int} {m m' k : Machine} {n : Nat}

/-- Where an execution comes by, the invariant holds. -/
theorem passes (c : Contract Pre Inv Post) (pre : Pre start m) (passes : Passes start m n i k) :
    Inv start m i k := by
  induction passes with
  | begins => exact c.begins pre
  | skips earlier here disabled ih => exact c.round c.upholds_run ih (.skipped here disabled)
  | dispatches earlier ready onward ih =>
    exact c.round c.upholds_run ih (rounds_iff.mpr onward)

/-- Every execution that arises begins as the contract asks. -/
theorem arises (c : Contract Pre Inv Post) (pre : Pre start m) (arises : Arises start m start' m') :
    Pre start' m' := by
  induction arises with
  | outermost => exact pre
  | tranche outer passes opens ih => exact c.opens c.upholds_run (c.passes ih passes) opens

end Contract

end Machine

end Kitchen.Run

import Kitchen.Proofs.Run.Places

namespace Kitchen.Run.Machine

variable {run run' : Machine → Stop × Machine} {start i : Int} {op : Operation} {m k child : Machine}

theorem forkBody_length (m : Machine) (i : Int) (d : Dish) (inside : -(m.ops.length : Int) ≤ i) :
    (m.forking i d).forkBody.length ≤ m.ops.length - (i + 1).toNat := by
  have dropped : (m.ops.drop (follows m.ops.length i)).length ≤ m.ops.length - (i + 1).toNat := by
    rw [List.length_drop]
    unfold follows
    split <;> omega
  exact Nat.le_trans (List.takeWhile_sublist _).length_le dropped

/-- A Fork that does not stand before the front runs fewer operations than its list has. -/
theorem Opens.length (keeps : KeepsShape run) (opens : m.Opens run start i child) :
    child.ops.length ≤ m.ops.length ∧ (0 ≤ i → child.ops.length < m.ops.length) := by
  cases opens with
  | @intro op v d s _ ready fork get cut opens =>
    obtain ⟨separator, delimiter, ignoring, more, v', parts, -, -, -, rfl⟩ := split_ok cut
    obtain ⟨n, place, -⟩ := opAt_place ready.here
    have inside := place_some place
    have length := forkBody_length (m.enter i op) i d inside.2.2.1
    rw [opens.ops keeps]
    constructor
    · exact Nat.le_trans length (Nat.sub_le _ _)
    · intro front
      have size : (m.enter i op).ops.length = m.ops.length := rfl
      dsimp only
      omega

namespace Split

variable {s : Split} {ledger : Ledger}

theorem serve_congr {number : Nat} {v : Value} {h : Harvest}
    (same : ∀ dish, Dish.make v s.op.input = .ok dish →
      run (s.next number dish h) = run' (s.next number dish h)) :
    s.serve run number v h = s.serve run' number v h := by
  unfold serve
  cases made : Dish.make v s.op.input with
  | error e => rfl
  | ok dish =>
    have ran := same dish made
    unfold next at ran
    simp only [ran]

/-- A Fork goes by what its own tranches come to alone. -/
theorem serveAll_congr (same : ∀ child, s.Opens run ledger child → run child = run' child) :
    s.serveAll run 1 s.parts (s.opening ledger) = s.serveAll run' 1 s.parts (s.opening ledger) := by
  -- The induction is on the tranches still to come, after those that were brought in.
  suffices all : ∀ after before h, s.parts = before ++ after →
      s.serveAll run 1 before (s.opening ledger) = (none, h) →
      s.serveAll run (before.length + 1) after h = s.serveAll run' (before.length + 1) after h from
    all s.parts [] _ rfl rfl
  intro after
  induction after with
  | nil => intros; rfl
  | cons v after ih =>
    intro before h parts sofar
    have first : s.serve run (before.length + 1) v h = s.serve run' (before.length + 1) v h :=
      serve_congr fun dish made => same _ (.intro parts sofar made)
    obtain ⟨halt, h₁, serve⟩ := serve_serve run s (before.length + 1) v h
    unfold serveAll
    rw [← first, serve.eq]
    cases halt with
    | some halt => rfl
    | none =>
      have := ih (before ++ [v]) h₁ (by simpa using parts) (serve.joins sofar)
      simpa using this

end Split

theorem Serves.congr {r : Except Halt Int} (serves : m.Serves run i op r k)
    (same : ∀ v d s child, m.dish.get op.input = .ok (v, d) →
      (m.forking i d).split op = (.ok s, d) → s.Opens run m.ledger child → run child = run' child) :
    m.Serves run' i op r k := by
  cases serves with
  | unsplit get cut => exact .unsplit get cut
  | halted get cut served =>
    rw [Split.serveAll_congr fun child opens => same _ _ _ child get cut opens] at served
    exact .halted get cut served
  | unset get cut served set =>
    rw [Split.serveAll_congr fun child opens => same _ _ _ child get cut opens] at served
    exact .unset get cut served set
  | joined get cut served set =>
    rw [Split.serveAll_congr fun child opens => same _ _ _ child get cut opens] at served
    exact .joined get cut served set

theorem round_congr (same : ∀ child, m.Opens run start i child → run child = run' child) :
    m.round run start i = m.round run' start i := by
  obtain ⟨t, rounds⟩ := rounds_round run start i m
  rw [rounds.eq]
  symm
  apply Rounds.eq
  -- Only a Fork asks for the way of running, and it asks for its own tranches alone.
  cases rounds with
  | completed beyond => exact .completed beyond
  | outside within missing => exact .outside within missing
  | skipped here disabled => exact .skipped here disabled
  | paused here enabled pauses => exact .paused here enabled pauses
  | exceeded here enabled goes excess => exact .exceeded here enabled goes excess
  | failed ready acts => exact .failed ready acts
  | acted ready acts => exact .acted ready acts
  | halted ready fork serves =>
    refine .halted ready fork (serves.congr ?_)
    intro v d s child get cut opens
    exact same child (.intro ready fork get cut opens)
  | served ready fork serves =>
    refine .served ready fork (serves.congr ?_)
    intro v d s child get cut opens
    exact same child (.intro ready fork get cut opens)

theorem drive_congr (regular : Regular run) (fuel : Nat) (inv : Keeps start m i k)
    (same : ∀ i k child, Keeps start m i k → k.Opens run start i child → run child = run' child) :
    k.drive run start fuel i = k.drive run' start fuel i := by
  induction fuel generalizing i k with
  | zero => rfl
  | succ fuel ih =>
    unfold drive
    obtain ⟨t, rounds⟩ := rounds_round run start i k
    rw [← round_congr fun child opens => same i k child inv opens, rounds.eq]
    cases t with
    | ended stop k' => rfl
    | onward j k' => exact ih (places.round regular inv rounds)

/-- A depth that exceeds the number of operations, but for the one more that an execution from before
the front may take, leaves a depth that exceeds those of every tranche. -/
theorem Opens.shallower {depth : Nat} (opens : k.Opens run start i child) (regular : Regular run)
    (inv : Keeps start m i k)
    (enough : m.ops.length + (if start < 0 then 1 else 0) < depth + 1) :
    child.ops.length + (if (0 : Int) < 0 then 1 else 0) < depth := by
  have length : m.ops.length = k.ops.length := inv.ops.length_eq
  have fewer := opens.length regular.shape
  rw [if_neg (Int.lt_irrefl 0)]
  by_cases front : 0 ≤ start
  · have shorter := fewer.2 (inv.front front)
    rw [if_neg (by omega)] at enough
    omega
  · rw [if_pos (by omega)] at enough
    omega

/-- Any two depths that exceed the number of operations give the same execution. -/
theorem execute_depth {depth depth' : Nat} (start : Int) (m : Machine)
    (enough : m.ops.length + (if start < 0 then 1 else 0) < depth)
    (enough' : m.ops.length + (if start < 0 then 1 else 0) < depth') :
    m.execute depth start = m.execute depth' start := by
  induction depth generalizing depth' start m with
  | zero => omega
  | succ depth ih =>
    obtain ⟨depth', rfl⟩ : ∃ d, depth' = d + 1 := ⟨depth' - 1, by omega⟩
    unfold execute
    refine drive_congr (regular_execute depth) _ (places.begins trivial) ?_
    intro i k child inv opens
    have regular := regular_execute depth
    exact ih 0 child (opens.shallower regular inv enough) (opens.shallower regular inv enough')

/-- More rounds do not change an execution that has finished. -/
theorem drive_add {fuel : Nat} (more : Nat) (finished : (k.drive run start fuel i).1 ≠ .unfinished) :
    k.drive run start (fuel + more) i = k.drive run start fuel i := by
  induction fuel generalizing i k with
  | zero => exact absurd rfl finished
  | succ fuel ih =>
    rw [Nat.add_right_comm]
    unfold drive at finished ⊢
    cases ended : k.round run start i with
    | ended stop k' => rfl
    | onward j k' =>
      rw [ended] at finished
      exact ih finished

/-- Whatever rounds are granted, executions that finish are the same. -/
theorem drive_agree {fuel fuel' : Nat} (finished : (k.drive run start fuel i).1 ≠ .unfinished)
    (finished' : (k.drive run start fuel' i).1 ≠ .unfinished) :
    k.drive run start fuel i = k.drive run start fuel' i := by
  calc
    k.drive run start fuel i = k.drive run start (fuel + fuel') i := (drive_add fuel' finished).symm
    _ = k.drive run start (fuel' + fuel) i := by rw [Nat.add_comm]
    _ = k.drive run start fuel' i := drive_add fuel finished'

/-- A run is a loop whose Forks run each tranche by a run from the front. -/
theorem run_eq_drive (start : Int) (m : Machine) :
    m.run start =
      (m.note (.started m.ops.length start)).drive (Machine.run 0) start
        (rounds m.ops m.ledger.limit) start := by
  unfold Machine.run
  rw [execute]
  refine drive_congr (regular_execute _) _ (places.begins trivial) ?_
  intro i k child inv opens
  -- The depth that is left need not be that of a run, but it is enough.
  have length : m.ops.length = k.ops.length := inv.ops.length_eq
  have fewer := opens.length (regular_execute _).shape
  apply execute_depth
  · rw [if_neg (Int.lt_irrefl 0)]
    omega
  · rw [if_neg (Int.lt_irrefl 0)]
    omega

/-- What a run ends with, one of its rounds ended with. -/
theorem run_passes {stop : Stop} (ran : m.run start = (stop, k)) (finished : stop ≠ .unfinished) :
    ∃ n i k', Passes start m n i k' ∧ k'.round (Machine.run 0) start i = .ended stop k := by
  rw [run_eq_drive] at ran
  generalize rounds m.ops m.ledger.limit = fuel at ran
  -- The rounds that were granted do not matter: the last of those that were used ended the run.
  suffices loop : ∀ {n i k'}, Passes start m n i k' →
      k'.drive (Machine.run 0) start fuel i = (stop, k) →
      ∃ n i k', Passes start m n i k' ∧ k'.round (Machine.run 0) start i = .ended stop k from
    loop .begins ran
  clear ran
  induction fuel with
  | zero =>
    intro n i k' _ ran
    cases ran
    exact absurd rfl finished
  | succ fuel ih =>
    intro n i k' passes ran
    unfold drive at ran
    cases round : k'.round (Machine.run 0) start i with
    | ended stop' k₁ =>
      rw [round] at ran
      cases ran
      exact ⟨n, i, k', passes, round⟩
    | onward j k₁ =>
      rw [round] at ran
      obtain ⟨n', -, further⟩ := passes.onward round
      exact ih further ran

end Kitchen.Run.Machine

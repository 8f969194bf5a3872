import Kitchen.Proofs.Run.Round

namespace Kitchen.Run

inductive Stop.Fatal : Stop → Halt → Prop where
  | unfinished : Fatal .unfinished .unfinished
  | overLimit (l : Int) : Fatal (.overLimit l) (.overLimit l)

namespace Machine

namespace Split

variable {run : Machine → Stop × Machine} {s : Split} {number : Nat} {v : Value} {h h' : Harvest}
  {halt : Option Halt} {ledger : Ledger}

-- The machine that runs a tranche after the harvest of the earlier ones.
def next (s : Split) (number : Nat) (dish : Dish) (h : Harvest) : Machine :=
  s.machine dish h.ops (h.ledger.note (.tranche number s.parts.length))

theorem reach_broken (s : Split) (b : Breakdown) :
    s.reach (.broken b) = if s.ignoring then .ok (b.place + 1) else .error (.broken b) := rfl

inductive Serve (run : Machine → Stop × Machine) (s : Split) (number : Nat) (v : Value)
    (h : Harvest) : Option Halt → Harvest → Prop where
  | unmade {e : Dish.Fault} (made : Dish.make v s.op.input = .error e) :
      Serve run s number v h (some (.failed (.ofDish e)))
        { h with ledger := h.ledger.note (.tranche number s.parts.length) }
  | stopped {dish : Dish} {stop : Stop} {m : Machine} {halt : Halt}
      (made : Dish.make v s.op.input = .ok dish) (ran : run (s.next number dish h) = (stop, m))
      (reach : s.reach stop = .error halt) :
      Serve run s number v h (some halt) { h with ledger := m.ledger }
  | unread {dish : Dish} {stop : Stop} {m : Machine} {progress : Int} {e : Dish.Fault}
      (made : Dish.make v s.op.input = .ok dish) (ran : run (s.next number dish h) = (stop, m))
      (reach : s.reach stop = .ok progress) (get : m.dish.get s.op.output = .error e) :
      Serve run s number v h (some (.failed (.ofDish e)))
        { h with ledger := remark number stop m.ledger }
  | brought {dish d : Dish} {stop : Stop} {m : Machine} {progress : Int} {w : Value}
      (made : Dish.make v s.op.input = .ok dish) (ran : run (s.next number dish h) = (stop, m))
      (reach : s.reach stop = .ok progress) (get : m.dish.get s.op.output = .ok (w, d)) :
      Serve run s number v h none
        ⟨h.output ++ outputText w ++ s.delimiter, progress, m.ops, remark number stop m.ledger⟩

theorem Serve.eq (serve : s.Serve run number v h halt h') : s.serve run number v h = (halt, h') := by
  unfold Split.serve
  cases serve with
  | unmade made => simp only [made]
  | stopped made ran reach =>
    unfold next at ran
    simp only [made, ran, reach]
  | unread made ran reach get =>
    unfold next at ran
    simp only [made, ran, reach, gather, get]
  | brought made ran reach get =>
    unfold next at ran
    simp only [made, ran, reach, gather, get]

theorem serve_serve (run : Machine → Stop × Machine) (s : Split) (number : Nat) (v : Value)
    (h : Harvest) : ∃ halt h', s.Serve run number v h halt h' := by
  cases made : Dish.make v s.op.input with
  | error e => exact ⟨_, _, .unmade made⟩
  | ok dish =>
    obtain ⟨stop, m, ran⟩ : ∃ stop m, run (s.next number dish h) = (stop, m) := ⟨_, _, rfl⟩
    cases reach : s.reach stop with
    | error halt => exact ⟨_, _, .stopped made ran reach⟩
    | ok progress =>
      cases get : m.dish.get s.op.output with
      | error e => exact ⟨_, _, .unread made ran reach get⟩
      | ok wd => exact ⟨_, _, .brought (d := wd.2) made ran reach get⟩

theorem serveAll_append (xs ys : List Value) :
    s.serveAll run number (xs ++ ys) h =
      match s.serveAll run number xs h with
      | (none, h) => s.serveAll run (number + xs.length) ys h
      | halted => halted := by
  induction xs generalizing number h with
  | nil => rfl
  | cons x xs ih =>
    simp only [List.cons_append, serveAll, List.length_cons]
    cases s.serve run number x h with
    | mk halt h' =>
      cases halt with
      | none =>
        simp only [ih]
        rw [Nat.add_right_comm, Nat.add_assoc]
      | some halt => rfl

/-- What every tranche keeps is kept by all of them, whether one halts or not. -/
theorem serveAll_keeps (Inv : Harvest → Prop)
    (part : ∀ {number v h halt h'}, Inv h → s.Serve run number v h halt h' → Inv h')
    (number : Nat) (vs : List Value) (inv : Inv h)
    (served : s.serveAll run number vs h = (halt, h')) : Inv h' := by
  induction vs generalizing number h with
  | nil =>
    obtain ⟨-, rfl⟩ : none = halt ∧ h = h' := by simpa [serveAll] using served
    exact inv
  | cons v vs ih =>
    obtain ⟨halt₁, h₁, serve⟩ := serve_serve run s number v h
    have kept := part inv serve
    rw [serveAll, serve.eq] at served
    cases halt₁ with
    | none => exact ih (number + 1) kept served
    | some halt₁ =>
      obtain ⟨-, rfl⟩ : some halt₁ = halt ∧ h₁ = h' := by simpa using served
      exact kept

-- The machines in which the tranches run, each after those before it were served.
inductive Opens (run : Machine → Stop × Machine) (s : Split) (ledger : Ledger) : Machine → Prop where
  | intro {before after : List Value} {v : Value} {h : Harvest} {dish : Dish}
      (parts : s.parts = before ++ v :: after)
      (served : s.serveAll run 1 before (s.opening ledger) = (none, h))
      (made : Dish.make v s.op.input = .ok dish) :
      Opens run s ledger (s.next (before.length + 1) dish h)

/-- A tranche that is brought in joins those that were before it. -/
theorem Serve.joins {before : List Value} (serve : s.Serve run (before.length + 1) v h none h')
    (sofar : s.serveAll run 1 before (s.opening ledger) = (none, h)) :
    s.serveAll run 1 (before ++ [v]) (s.opening ledger) = (none, h') := by
  rw [serveAll_append, sofar]
  simp only [serveAll, Nat.add_comm 1, serve.eq]

/-- What holds at the opening and is kept by each tranche that is brought in holds after all of them;
what each halting tranche leads to holds if one of them halts. -/
theorem serveAll_rule (Inv : Harvest → Prop) (Bad : Halt → Harvest → Prop)
    (opening : Inv (s.opening ledger))
    (part : ∀ {number v h halt h'},
      (∀ dish, Dish.make v s.op.input = .ok dish → s.Opens run ledger (s.next number dish h)) →
      Inv h → s.Serve run number v h halt h' → halt.elim (Inv h') (Bad · h'))
    (served : s.serveAll run 1 s.parts (s.opening ledger) = (halt, h')) :
    halt.elim (Inv h') (Bad · h') := by
  -- The induction is on the tranches still to come, after those that were brought in.
  suffices all : ∀ after before h, s.parts = before ++ after →
      s.serveAll run 1 before (s.opening ledger) = (none, h) → Inv h →
      s.serveAll run (before.length + 1) after h = (halt, h') → halt.elim (Inv h') (Bad · h') from
    all s.parts [] _ rfl rfl opening served
  intro after
  induction after with
  | nil =>
    intro before h _ _ inv eq
    obtain ⟨rfl, rfl⟩ : none = halt ∧ h = h' := by simpa [serveAll] using eq
    exact inv
  | cons v after ih =>
    intro before h parts sofar inv eq
    obtain ⟨halt₁, h₁, serve⟩ := serve_serve run s (before.length + 1) v h
    have kept := part (fun dish made => .intro parts sofar made) inv serve
    rw [serveAll, serve.eq] at eq
    cases halt₁ with
    | some halt₁ =>
      obtain ⟨rfl, rfl⟩ : some halt₁ = halt ∧ h₁ = h' := by simpa using eq
      exact kept
    | none =>
      apply ih (before ++ [v]) h₁ (by simpa using parts) (serve.joins sofar) kept
      simpa using eq

/-- A halt that is neither a failure of the Fork nor one that a tranche reports comes from a run that could
not go on. -/
theorem serveAll_fatal (served : s.serveAll run 1 s.parts (s.opening ledger) = (halt, h')) :
    halt.elim True fun halt => (∃ f, halt = .failed f) ∨ (∃ b, halt = .broken b) ∨
      ∃ child, s.Opens run ledger child ∧ (run child).1.Fatal halt := by
  refine serveAll_rule (fun _ => True) (fun halt _ => (∃ f, halt = .failed f) ∨
    (∃ b, halt = .broken b) ∨ ∃ child, s.Opens run ledger child ∧ (run child).1.Fatal halt)
    trivial ?_ served
  intro number v h₁ halt₁ h₂ opens _ serve
  -- Only a stop of the tranche that the Fork cannot go on after is not a failure of its own.
  cases serve with
  | unmade made => exact .inl ⟨_, rfl⟩
  | @stopped dish stop m halt₁ made ran reach =>
    have child := opens dish made
    cases stop with
    | «at» p => cases reach
    | broken b =>
      rw [reach_broken] at reach
      split at reach
      · cases reach
      · cases reach
        exact .inr (.inl ⟨b, rfl⟩)
    | overLimit l =>
      cases reach
      refine .inr (.inr ⟨_, child, ?_⟩)
      rw [ran]
      exact .overLimit l
    | outOfRange =>
      cases reach
      exact .inl ⟨_, rfl⟩
    | unfinished =>
      cases reach
      refine .inr (.inr ⟨_, child, ?_⟩)
      rw [ran]
      exact .unfinished
  | unread made ran reach get => exact .inl ⟨_, rfl⟩
  | brought made ran reach get => trivial

end Split

theorem itemsOf_ofGlyphs (gs : List Text.Glyph) :
    itemsOf (.ofGlyphs gs) = .ok (gs.map fun g => .ofGlyphs [g]) := by
  rcases Value.ofGlyphs_cases gs with ⟨s, rfl, same⟩ | ⟨t, rfl, same⟩ <;> rw [same]
  · rw [itemsOf, Text.Glyph.ofText, Text.Glyph.ofChars, List.map_map]
    rfl
  · rfl

theorem splitValue_ofGlyphs (separator : Value) (gs : List Text.Glyph) :
    splitValue separator (.ofGlyphs gs) = splitGlyphs separator gs := by
  rcases Value.ofGlyphs_cases gs with ⟨s, rfl, same⟩ | ⟨t, rfl, same⟩ <;> rw [same] <;> rfl

theorem outputText_ofGlyphs (gs : List Text.Glyph) : outputText (.ofGlyphs gs) = gs := by
  rcases Value.ofGlyphs_cases gs with ⟨s, rfl, same⟩ | ⟨t, rfl, same⟩ <;> rw [same] <;> rfl

/-- What a Fork is to serve: its first three arguments and its input decide it. -/
theorem split_ok {m : Machine} {op : Operation} {s : Split} {d : Dish}
    (cut : m.split op = (.ok s, d)) :
    ∃ separator delimiter ignoring more v parts,
      op.args = separator :: delimiter :: ignoring :: more ∧
      m.dish.get op.input = .ok (v, d) ∧ tranches separator v = .ok parts ∧
      s = ⟨op, m.forkBody, m.frame.inner, delimiter.glyphs, ignoring.truthy, parts⟩ := by
  unfold split at cut
  split at cut
  · next separator delimiter ignoring more args =>
    split at cut
    · cases cut
    · next v dish get =>
      split at cut
      · cases cut
      · next parts cutting =>
        cases cut
        exact ⟨separator, delimiter, ignoring, more, v, parts, args, get, cutting, rfl⟩
  · cases cut

theorem forkBody_subset (m : Machine) : m.forkBody ⊆ m.ops := by
  intro op mem
  have later : op ∈ m.rest := List.takeWhile_subset _ mem
  exact List.mem_of_mem_drop later

/-- What a Fork runs is taken from its own list. -/
theorem split_subset {m : Machine} {op : Operation} {s : Split} {d : Dish}
    (cut : m.split op = (.ok s, d)) : s.body ⊆ m.ops := by
  obtain ⟨separator, delimiter, ignoring, more, v, parts, -, -, -, rfl⟩ := split_ok cut
  exact m.forkBody_subset

/-- Machines with the same dish split it in the same way, each for its own operations. -/
theorem split_congr {m m' : Machine} (op : Operation) (same : m'.dish = m.dish) :
    m'.split op =
      ((m.split op).1.map fun s => { s with body := m'.forkBody, frame := m'.frame.inner },
        (m.split op).2) := by
  unfold split
  rw [same]
  split
  · split
    · rfl
    · split <;> rfl
  · rfl

-- The machines in which the Fork at a place runs its tranches.
inductive Opens (run : Machine → Stop × Machine) (start i : Int) (m : Machine) : Machine → Prop where
  | intro {op : Operation} {v : Value} {d : Dish} {s : Split} {child : Machine}
      (ready : m.Ready start i op) (fork : op.primitive? = some .fork)
      (get : m.dish.get op.input = .ok (v, d))
      (cut : ((m.enter i op).forking i d).split op = (.ok s, d))
      (opens : s.Opens run (m.enter i op).ledger child) :
      Opens run start i m child

inductive Ending (run : Machine → Stop × Machine) (start i : Int) (m : Machine) : Stop → Prop where
  | «at» (p : Int) : Ending run start i m (.at p)
  | broken (b : Breakdown) : Ending run start i m (.broken b)
  | outside : Ending run start i m .outOfRange
  | exceeded {l : Int} (excess : m.ledger.count.exceeded? = some l) :
      Ending run start i m (.overLimit l)
  | fatal {child : Machine} {halt : Halt} (opens : m.Opens run start i child)
      (fatal : (run child).1.Fatal halt) : Ending run start i m (run child).1

/-- A failure of the operation itself ends the execution at it or as broken. -/
theorem conclude_failed (m : Machine) (i : Int) (op : Operation) (f : Failure) :
    ∃ stop k, m.conclude i op (.failed f) = .ended stop k ∧
      ((∃ p, stop = .at p) ∨ ∃ b, stop = .broken b) := by
  unfold conclude
  dsimp only
  split
  · exact ⟨_, _, rfl, .inl ⟨_, rfl⟩⟩
  · exact ⟨_, _, rfl, .inr ⟨_, rfl⟩⟩

theorem Rounds.ending {run : Machine → Stop × Machine} {start i : Int} {m k : Machine} {stop : Stop}
    (rounds : m.Rounds run start i (.ended stop k)) : Ending run start i m stop := by
  generalize ht : Turn.ended stop k = t at rounds
  -- Failures of the operation itself, of whatever kind, end it in one of two ways.
  have failed : ∀ {k' op f}, conclude k' i op (.failed f) = Turn.ended stop k →
      Ending run start i m stop := by
    intro k' op f ended
    obtain ⟨stop', k'', eq, «at» | broken⟩ := conclude_failed k' i op f
    · obtain ⟨p, rfl⟩ := «at»
      rw [eq] at ended
      cases ended
      exact .at p
    · obtain ⟨b, rfl⟩ := broken
      rw [eq] at ended
      cases ended
      exact .broken b
  cases rounds with
  | completed beyond =>
    cases ht
    exact .at _
  | outside within missing =>
    cases ht
    exact .outside
  | paused here enabled pauses =>
    cases ht
    exact .at i
  | exceeded here enabled goes excess =>
    cases ht
    exact .exceeded excess
  | failed ready acts => exact failed ht.symm
  | @halted op halt k' ready fork serves =>
    generalize hr : Except.error halt = r at serves
    cases serves with
    | unsplit get cut =>
      cases hr
      exact failed ht.symm
    | unset get cut served set =>
      cases hr
      exact failed ht.symm
    | halted get cut served =>
      cases hr
      rcases Split.serveAll_fatal served with ⟨f, rfl⟩ | ⟨b, rfl⟩ | ⟨child, opens, fatal⟩
      · exact failed ht.symm
      · cases ht
        exact .broken _
      · -- A tranche that went over the limit, or did not finish, ends the round in the same way.
        have tranche : m.Opens run start i child := .intro ready fork get cut opens
        have ended := Ending.fatal tranche fatal
        generalize (run child).1 = stop' at fatal ended
        cases fatal with
        | unfinished =>
          cases ht
          exact ended
        | overLimit l =>
          cases ht
          exact ended
    | joined get cut served set => cases hr
  | skipped here disabled => cases ht
  | acted ready acts => cases ht
  | served ready fork serves => cases ht

end Machine

end Kitchen.Run

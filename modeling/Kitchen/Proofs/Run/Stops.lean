import Kitchen.Proofs.Run.Stepwise
import Kitchen.Proofs.Run.Termination

/-!
Where runs stop, and why. The cursor of every execution stays in its list. A run that stops before its end
pauses or has a failure for its output, and one that is broken names the operation that broke it, however
deep it lay.
-/
namespace Kitchen.Run.Machine

variable {run : Machine → Stop × Machine} {start i : Int} {op : Operation} {m k : Machine}

inductive Halts (run : Machine → Stop × Machine) (i : Int) (op : Operation) (m : Machine) :
    Halt → Machine → Prop where
  | acts {f : Failure} {k : Machine} (acts : m.Acts i op (.error f) k) :
      Halts run i op m (.failed f) k
  | serves {halt : Halt} {k : Machine} (fork : op.primitive? = some .fork)
      (serves : m.Serves run i op (.error halt) k) : Halts run i op m halt k

theorem Halts.dispatch {halt : Halt} (halts : m.Halts run i op halt k) (here : m.opAt? i = some op) :
    m.dispatch run i op = (.error halt, k) := by
  cases halts with
  | acts acts => exact acts.dispatch here
  | serves fork serves => exact serves.dispatch here fork

theorem conclude_at {halt : Halt} {p : Int} (concluded : m.conclude i op halt = .ended (.at p) k) :
    ∃ f, halt = .failed f ∧ f.isExpected = true ∧ p = i ∧
      k = { m with dish := ⟨.ofGlyphs f.message, "string"⟩ } := by
  unfold conclude at concluded
  cases halt with
  | failed f =>
    dsimp only at concluded
    split at concluded
    · next expected =>
      cases concluded
      exact ⟨f, rfl, expected, rfl, rfl⟩
    · cases concluded
  | _ => cases concluded

theorem conclude_broken {halt : Halt} {b : Breakdown}
    (concluded : m.conclude i op halt = .ended (.broken b) k) :
    k = m ∧ b.place = i ∧
      ((∃ f, halt = .failed f ∧ f.isExpected = false ∧ b = ⟨op.name, i, f⟩) ∨
        ∃ b', halt = .broken b' ∧ b = { b' with place := i }) := by
  unfold conclude at concluded
  cases halt with
  | failed f =>
    dsimp only at concluded
    split at concluded
    · cases concluded
    · next hard =>
      cases concluded
      exact ⟨rfl, rfl, .inl ⟨f, rfl, eq_false_of_ne_true hard, rfl⟩⟩
  | broken b' =>
    cases concluded
    exact ⟨rfl, rfl, .inr ⟨b', rfl, rfl⟩⟩
  | _ => cases concluded

/-- A round that stops at a place has come to the end, or holds at an enabled operation: before it if it
pauses, or at its failure, which is the output. -/
theorem Rounds.stopped {p : Int} (rounds : m.Rounds run start i (.ended (.at p) k)) :
    (p = m.ops.length ∧ (m.ops.length : Int) ≤ i) ∨
      p = i ∧ ∃ op, m.opAt? i = some op ∧ op.disabled = false ∧
        ((op.pauses = true ∧ i ≠ start) ∨
          ∃ f k', m.Ready start i op ∧ (m.enter i op).Halts run i op (.failed f) k' ∧
            f.isExpected = true ∧ k = { k' with dish := ⟨.ofGlyphs f.message, "string"⟩ }) := by
  generalize ht : Turn.ended (.at p) k = t at rounds
  -- Of the failures only the expected ones make it stop; the others break it.
  cases rounds with
  | completed beyond =>
    cases ht
    exact .inl ⟨rfl, beyond⟩
  | @paused op here enabled pauses =>
    cases ht
    exact .inr ⟨rfl, op, here, enabled, .inl pauses⟩
  | @failed op f k' ready acts =>
    obtain ⟨f', same, expected, rfl, output⟩ := conclude_at ht.symm
    cases same
    exact .inr ⟨rfl, op, ready.here, ready.enabled, .inr ⟨f, k', ready, .acts acts, expected, output⟩⟩
  | @halted op halt k' ready fork serves =>
    obtain ⟨f, rfl, expected, rfl, output⟩ := conclude_at ht.symm
    exact .inr ⟨rfl, op, ready.here, ready.enabled,
      .inr ⟨f, k', ready, .serves fork serves, expected, output⟩⟩
  | _ => cases ht

/-- A round that breaks reports the place of its operation, which failed or is a Fork that was broken. -/
theorem Rounds.broke {b : Breakdown} (rounds : m.Rounds run start i (.ended (.broken b) k)) :
    b.place = i ∧ ∃ op halt, m.Ready start i op ∧ (m.enter i op).Halts run i op halt k ∧
      ((∃ f, halt = .failed f ∧ f.isExpected = false ∧ b = ⟨op.name, i, f⟩) ∨
        ∃ b', halt = .broken b' ∧ b = { b' with place := i }) := by
  generalize ht : Turn.ended (.broken b) k = t at rounds
  cases rounds with
  | @failed op f k' ready acts =>
    obtain ⟨rfl, place, why⟩ := conclude_broken ht.symm
    exact ⟨place, op, _, ready, .acts acts, why⟩
  | @halted op halt k' ready fork serves =>
    obtain ⟨rfl, place, why⟩ := conclude_broken ht.symm
    exact ⟨place, op, _, ready, .serves fork serves, why⟩
  | _ => cases ht

-- How a failure reaches the execution that reports it: an operation of its own failed, or one of its Forks ran
-- a tranche that was broken. The operation that is named, and why it failed, are handed on as they are; the
-- place is that of the Fork.
inductive Traced : Int → Machine → Breakdown → Prop where
  | itself {start i : Int} {n : Nat} {m k k' : Machine} {op : Operation} {f : Failure}
      (passes : Passes start m n i k) (ready : k.Ready start i op)
      (failed : (k.enter i op).dispatch (Machine.run 0) i op = (.error (.failed f), k'))
      (hard : f.isExpected = false) : Traced start m ⟨op.name, i, f⟩
  | within {start i : Int} {n : Nat} {m k child : Machine} {op : Operation} {b : Breakdown}
      (passes : Passes start m n i k) (ready : k.Ready start i op)
      (fork : op.primitive? = some .fork) (opens : k.Opens (Machine.run 0) start i child)
      (broken : (Machine.run 0 child).1 = .broken b) (inner : Traced 0 child b) :
      Traced start m { b with place := i }

namespace Split

variable {s : Split} {ledger : Ledger}

theorem reach_halted {stop : Stop} {b : Breakdown} (reach : s.reach stop = .error (.broken b)) :
    stop = .broken b := by
  cases stop with
  | broken b' =>
    rw [reach_broken] at reach
    split at reach
    · cases reach
    · cases reach
      rfl
  | _ => cases reach

/-- A Fork that is broken was so by a tranche. -/
theorem serveAll_broken {b : Breakdown} {h : Harvest}
    (served : s.serveAll run 1 s.parts (s.opening ledger) = (some (.broken b), h)) :
    ∃ child, s.Opens run ledger child ∧ (run child).1 = .broken b := by
  -- Of tranches that were brought in nothing is asked; the one that halts the Fork is the one sought.
  have found := serveAll_rule (fun _ => True) (fun halt _ => ∀ b, halt = .broken b →
    ∃ child, s.Opens run ledger child ∧ (run child).1 = .broken b) trivial ?_ served
  · exact found b rfl
  intro number v h₁ halt h₂ opens _ serve
  cases serve with
  | @stopped dish stop m₁ halt₁ made ran reach =>
    rintro b rfl
    refine ⟨_, opens dish made, ?_⟩
    rw [ran]
    exact reach_halted reach
  | brought made ran reach get => trivial
  | _ => exact fun b broken => by cases broken

end Split

theorem Ready.broken {b : Breakdown} (ready : m.Ready start i op)
    (halts : (m.enter i op).Halts run i op (.broken b) k) :
    op.primitive? = some .fork ∧ ∃ child, m.Opens run start i child ∧ (run child).1 = .broken b := by
  cases halts with
  | serves fork serves =>
    refine ⟨fork, ?_⟩
    generalize hr : Except.error (Halt.broken b) = r at serves
    cases serves with
    | halted get cut served =>
      cases hr
      obtain ⟨child, opens, broken⟩ := Split.serveAll_broken served
      exact ⟨child, .intro ready fork get cut opens, broken⟩
    | _ => cases hr

/-- What is reported of a run that is broken can be traced to the operation that failed. -/
theorem tracing : Stepwise (fun _ _ => True) (fun start m i k => ∃ n, Passes start m n i k)
    (fun start m stop _ => ∀ b, stop = .broken b → Traced start m b) where
  begins _ := ⟨0, .begins⟩
  unended _ _ := Stop.noConfusion
  opens _ _ := trivial
  round {start m i k t} traced inv rounds := by
    obtain ⟨n, passes⟩ := inv
    cases t with
    | onward j k' =>
      obtain ⟨n', -, further⟩ := passes.onward rounds.eq
      exact ⟨n', further⟩
    | ended stop k' =>
      rintro b rfl
      -- The operation failed itself, or it is a Fork and hands on what broke one of its tranches.
      obtain ⟨-, op, halt, ready, halts, ⟨f, rfl, hard, rfl⟩ | ⟨b', rfl, rfl⟩⟩ := rounds.broke
      · exact .itself passes ready (halts.dispatch ready.here) hard
      · obtain ⟨fork, child, opens, broken⟩ := ready.broken halts
        exact .within passes ready fork opens broken (traced child opens b' broken)

def Inside (m : Machine) : Prop :=
  0 ≤ m.frame.cursor ∧ m.frame.cursor ≤ m.ops.length

theorem labelPosition_lt {label : Value} {ops : List Operation} {n : Nat}
    (found : labelPosition? label ops = some n) : n < ops.length :=
  (List.findIdx?_eq_some_iff_getElem.mp found).1

theorem Acts.inside {r : Except Failure Int} (front : 0 ≤ i) (within : i < m.ops.length)
    (inside : m.Inside) (acts : m.Acts i op r k) : k.Inside := by
  have here : 0 ≤ i ∧ i ≤ m.ops.length := ⟨front, Int.le_of_lt within⟩
  cases acts with
  | declined primitive other get decided => exact here
  | @enacted p v d d' deed primitive other get decided =>
    cases deed with
    | leap label place =>
      obtain ⟨budget, -, -, found⟩ := Deed.ofPrimitive_leap primitive decided
      have inList := labelPosition_lt found
      exact ⟨Int.natCast_nonneg _, Int.ofNat_le.mpr (Nat.le_of_lt inList)⟩
    | capture texts =>
      -- The cursor stays, and as many operations are left as there were.
      have length := ({ m.moveTo i with dish := d' }.capture_akin texts).length_eq
      change 0 ≤ i ∧ i ≤ (({ m.moveTo i with dish := d' } : Machine).capture texts).ops.length
      rw [← length]
      exact here
    | finish => exact ⟨Int.natCast_nonneg _, Int.le_refl _⟩
    | _ => exact here
  | _ => exact inside

/-- A Fork comes no further than the operations that it runs. -/
theorem Serves.inside {r : Except Halt Int} (regular : Regular run) (front : 0 ≤ i)
    (within : i < m.ops.length) (serves : m.Serves run i op r k) : k.Inside := by
  cases serves with
  | @joined v d d' s h get cut served set =>
    have far := Split.serveAll_reach regular served
    obtain ⟨separator, delimiter, ignoring, more, w, parts, -, -, -, rfl⟩ := split_ok cut
    -- The last tranche came no further than its list goes, and that ends where the list of the Fork does.
    have length := m.forkBody_length i d (by omega)
    have body : h.progress ≤ ((m.forking i d).forkBody.length : Int) := far.2
    have ahead : 0 ≤ i + h.progress ∧ i + h.progress ≤ m.ops.length := by omega
    exact ahead
  | _ => exact ⟨front, Int.le_of_lt within⟩

theorem conclude_inside {onward : Int → Machine → Prop} {halt : Halt} (inside : m.Inside) :
    (m.conclude i op halt).Meets onward fun _ k => k.Inside :=
  conclude_meets fun _ _ => inside

/-- The cursor of an execution that does not start before the front stays in the list. -/
theorem cursors : Contract (fun _ _ => True)
    (fun start m i k => Keeps start m i k ∧ (0 ≤ start → m.Inside → k.Inside))
    (fun start m stop k => Ends start m stop k ∧ (0 ≤ start → m.Inside → k.Inside)) where
  unbegun _ := ⟨places.unbegun trivial, fun _ => id⟩
  begins _ := ⟨places.begins trivial, fun _ => id⟩
  unended inv := ⟨places.unended inv.1, inv.2⟩
  opens _ _ _ := trivial
  round {run start m i k t} keeps inv rounds := by
    have regular : Regular run := fun n _ => (keeps n trivial).1
    have kept := places.round regular inv.1 rounds
    have inside : 0 ≤ start → m.Inside → t.Meets (fun _ k => k.Inside) fun _ k => k.Inside := by
      intro front begun
      have here := inv.2 front begun
      have ahead := inv.1.front front
      -- Only a round that dispatches moves the cursor.
      cases rounds with
      | @failed op f k' ready acts =>
        have inside' := acts.inside (m := k.enter i op) ahead (opAt_lt ready.here) here
        exact conclude_inside inside'
      | @acted op j k' ready acts =>
        have inside' := acts.inside (m := k.enter i op) ahead (opAt_lt ready.here) here
        exact inside'
      | @halted op halt k' ready fork serves =>
        have inside' := serves.inside (m := k.enter i op) regular ahead (opAt_lt ready.here)
        exact conclude_inside inside'
      | @served op j k' ready fork serves =>
        have inside' := serves.inside (m := k.enter i op) regular ahead (opAt_lt ready.here)
        exact inside'
      | _ => exact here
    cases t with
    | ended stop k' => exact ⟨kept, inside⟩
    | onward j k' => exact ⟨kept, inside⟩

/-- The frame of a tranche begins right after its Fork. -/
theorem Opens.frame {child : Machine} (opens : m.Opens run start i child) :
    child.frame = (m.moveTo i).frame.inner := by
  cases opens with
  | @intro op v d s _ ready fork get cut opens =>
    obtain ⟨separator, delimiter, ignoring, more, w, parts, -, -, -, rfl⟩ := split_ok cut
    cases opens
    rfl

theorem Arises.inside {start' : Int} {m' : Machine} (inside : m.Inside)
    (arises : Arises start m start' m') : m'.Inside := by
  cases arises with
  | outermost => exact inside
  | tranche outer passes opens =>
    unfold Inside
    rw [opens.frame]
    exact ⟨Int.le_refl 0, Int.natCast_nonneg _⟩

/-- What a run that stopped before its end stopped at. -/
theorem run_stopped {p : Int} (front : 0 ≤ start) (ran : m.run start = (.at p, k))
    (early : p < m.ops.length) :
    ∃ op, m.ops[p.toNat]? = some op ∧ op.disabled = false ∧
      ((op.pauses = true ∧ p ≠ start) ∨
        ∃ n k₁ k₂ op₁ f, Passes start m n p k₁ ∧ op.Akin op₁ ∧ k₁.Ready start p op₁ ∧
          (k₁.enter p op₁).dispatch (Machine.run 0) p op₁ = (.error (.failed f), k₂) ∧
          f.isExpected = true ∧ k.dish = ⟨.ofGlyphs f.message, "string"⟩) := by
  obtain ⟨n, i, k₁, passes, ended⟩ := run_passes ran Stop.noConfusion
  have inv := places.passes trivial passes
  have length : m.ops.length = k₁.ops.length := inv.ops.length_eq
  rcases (rounds_iff.mpr ended).stopped with ⟨rfl, -⟩ | ⟨rfl, op₁, here, enabled, why⟩
  · omega
  · -- The operation is the one at this place when the run began, but for its arguments.
    obtain ⟨op, first, same⟩ := forall₂_back inv.ops (opAt_some (inv.front front) here)
    have same : op.Akin op₁ := same
    refine ⟨op, first, same.disabled.symm.trans enabled, ?_⟩
    rcases why with ⟨pauses, other⟩ | ⟨f, k₂, ready, halts, expected, output⟩
    · exact .inl ⟨same.pauses.symm.trans pauses, other⟩
    · have failed := halts.dispatch ready.here
      exact .inr ⟨n, k₁, k₂, op₁, f, passes, same, ready, failed, expected, by rw [output]⟩

/-- Every stop is reported at the right place. In a run that does not start before the front, the cursor of
every execution stays in its list. The run stops at the end, or at an enabled operation that pauses or
that has failed, with the message for its output; and a failure that breaks it is reported at the
operation that failed, or at the outermost Fork around it, with the name and the cause from inside. -/
theorem stops_in_place (ops : List Operation) (dish : Dish) (limit : Option Int) (start : Int)
    (front : 0 ≤ start) :
    let m := fresh ops dish limit
    (∀ start' m', Arises start m start' m' →
      (∀ n i k, Passes start' m' n i k →
        (0 ≤ k.frame.cursor ∧ k.frame.cursor ≤ k.ops.length) ∧
          ∀ op, k.Ready start' i op → 0 ≤ i ∧ i < k.ops.length) ∧
      0 ≤ (m'.run start').2.frame.cursor ∧
        (m'.run start').2.frame.cursor ≤ (m'.run start').2.ops.length) ∧
    (∀ p k, m.run start = (.at p, k) → 0 ≤ p ∧ p ≤ ops.length ∧
      (p < ops.length → ∃ op, ops[p.toNat]? = some op ∧ op.disabled = false ∧
        ((op.pauses = true ∧ p ≠ start) ∨
          ∃ n k₁ k₂ op₁ f, Passes start m n p k₁ ∧ op.Akin op₁ ∧ k₁.Ready start p op₁ ∧
            (k₁.enter p op₁).dispatch (Machine.run 0) p op₁ = (.error (.failed f), k₂) ∧
            f.isExpected = true ∧ k.dish = ⟨.ofGlyphs f.message, "string"⟩))) ∧
    ∀ b k, m.run start = (.broken b, k) → 0 ≤ b.place ∧
      (∃ op, ops[b.place.toNat]? = some op ∧ op.disabled = false) ∧ Traced start m b := by
  intro m
  -- The cursor by one contract, the stop by another, and the trace of a breakdown by a third one.
  have begun : m.Inside := ⟨Int.le_refl 0, Int.natCast_nonneg _⟩
  have lies : (m.run start).1.Lies ops := (places.run trivial).lies front
  refine ⟨?_, ?_, ?_⟩
  · intro start' m' arises
    have front' := arises.front front
    have begun' := arises.inside begun
    refine ⟨?_, (cursors.run trivial).2 front' begun'⟩
    intro n i k passes
    obtain ⟨inv, inside⟩ := cursors.passes trivial passes
    exact ⟨inside front' begun', fun op ready => ⟨inv.front front', opAt_lt ready.here⟩⟩
  · intro p k ran
    rw [ran] at lies
    exact ⟨lies.1, lies.2, run_stopped front ran⟩
  · intro b k ran
    have traced : ∀ b, (m.run start).1 = .broken b → Traced start m b := tracing.run trivial
    rw [ran] at lies traced
    exact ⟨lies.1, lies.2, traced b rfl⟩

def snare : List Operation :=
  [⟨"Fork", [.text ",", .text ";", .bool false], "string", "string", false, false, none⟩,
    ⟨"Register", [.text "(.+)", .bool true, .bool false], "string", "string", false, false, none⟩,
    ⟨"Label", [.text "x"], "string", "string", false, false, none⟩,
    ⟨"Conditional Jump", [.text "$R0", .bool true, .text "x", .int 10], "string", "string", false,
      false, none⟩]

def snared : Machine := fresh snare ⟨.text "a,(", "string"⟩ none

def unclosed : Breakdown :=
  ⟨"Conditional Jump", 0, .pattern ⟨.unterminatedGroup, [], 0, 1, 1, false⟩⟩

theorem stops_in_place_snared : (0 : Int) ≤ 0 ∧ ∃ k, snared.run 0 = (.broken unclosed, k) ∧
    Traced 0 snared unclosed := by
  have broken : (snared.run 0).1 = .broken unclosed := by decide +kernel
  have ran : snared.run 0 = (.broken unclosed, (snared.run 0).2) := Prod.ext broken rfl
  obtain ⟨-, -, breaks⟩ := stops_in_place snare ⟨.text "a,(", "string"⟩ none 0 (Int.le_refl 0)
  exact ⟨Int.le_refl 0, _, ran, (breaks unclosed _ ran).2.2⟩

end Kitchen.Run.Machine

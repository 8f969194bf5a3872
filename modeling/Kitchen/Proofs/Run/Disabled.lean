import Kitchen.Proofs.Run.Termination
import Kitchen.Proofs.Run.Thinning

/-!
Disabled operations are invisible. A run and the run without the disabled operations go side by side,
but that the first passes over a disabled operation while the other stands still.
-/
namespace Kitchen.Run.Machine

variable {f : Int → Int} {i i' : Int} {n size number : Nat} {op : Operation} {m m' k k' : Machine}

structure Split.Thinned (f : Int → Int) (s s' : Split) : Prop where
  rest : s' = { s with body := kept s.body, frame := s'.frame }
  jumps : s'.frame.jumps = s.frame.jumps
  addressable : s'.frame.addressable = s.frame.addressable
  offset : ∀ n ≤ s.body.length, f (s.frame.offset + n) = s'.frame.offset + rank s.body n

structure Harvest.Thinned (f : Int → Int) (s s' : Split) (h h' : Harvest) : Prop where
  output : h'.output = h.output
  inside : 0 ≤ h.progress ∧ h.progress ≤ s.body.length
  progress : h'.progress = rank s.body h.progress.toNat
  akin : OpsAkin s.body h.ops
  akin' : OpsAkin s'.body h'.ops
  ledger : h.ledger.Thinned f h'.ledger

inductive Split.Brought (f : Int → Int) (s s' : Split) :
    Option Halt → Harvest → Option Halt → Harvest → Prop where
  | on {h h' : Harvest} (thinned : h.Thinned f s s' h') : Brought f s s' none h none h'
  | halted {halt halt' : Halt} {h h' : Harvest} (alike : halt.Alike halt')
      (ledger : h.ledger.Thinned f h'.ledger) : Brought f s s' (some halt) h (some halt') h'

def Simulates (f : Int → Int) (size : Nat) : Prop :=
  ∀ m m' : Machine, m.ops.length < size → Budgeted m.ops → Unpaused m.ops → m.Thinned f m' →
    Turn.Thinned f (.ended (m.run 0).1 (m.run 0).2) (.ended (m'.run 0).1 (m'.run 0).2)

theorem Thinned.forkBody (thinned : m.Thinned f m') (here : m.ops[n]? = some op)
    (enabled : op.disabled = false) (cursor : m.frame.cursor = n)
    (cursor' : m'.frame.cursor = rank m.ops n) : m'.forkBody = kept m.forkBody := by
  have further : rank m.ops (n + 1) = rank m.ops n + 1 := rank_enabled here enabled
  -- A disabled Merge does not end the operations of a Fork.
  have blind : ∀ op : Operation, op.disabled = true → (!op.does .merge) = true := by
    intro op disabled
    simp only [Operation.does, disabled, Bool.not_true, Bool.and_false, Bool.not_false]
  unfold Machine.forkBody rest
  rw [cursor, cursor', follows_nat, follows_nat, kept_takeWhile _ _ blind, kept_drop, further,
    thinned.ops]

/-- Where places among the operations of a Fork lie in its own list. -/
theorem rank_forkBody {p : Nat} (here : m.ops[n]? = some op) (enabled : op.disabled = false)
    (cursor : m.frame.cursor = n) (within : p ≤ m.forkBody.length) :
    n + 1 + p ≤ m.ops.length ∧ rank m.ops (n + 1 + p) = rank m.ops n + 1 + rank m.forkBody p := by
  have inner : m.forkBody = (m.ops.drop (n + 1)).takeWhile fun op => !op.does .merge := by
    unfold Machine.forkBody rest
    rw [cursor, follows_nat]
  have inside := (List.getElem?_eq_some_iff.mp here).1
  have dropped : m.forkBody.length ≤ m.ops.length - (n + 1) := by
    rw [inner, ← List.length_drop]
    exact (List.takeWhile_sublist _).length_le
  constructor
  · omega
  · calc
      rank m.ops (n + 1 + p) = rank m.ops (n + 1) + rank (m.ops.drop (n + 1)) p :=
        rank_add m.ops (n + 1) p
      _ = rank m.ops n + 1 + rank (m.ops.drop (n + 1)) p := by
        rw [rank_enabled here enabled]
      _ = rank m.ops n + 1 + rank m.forkBody p := by
        rw [inner, rank_takeWhile _ (by rwa [← inner])]

theorem Thinned.split {s : Split} {d : Dish} (thinned : m.Thinned f m')
    (here : m.ops[n]? = some op) (enabled : op.disabled = false) (cursor : m.frame.cursor = n)
    (cursor' : m'.frame.cursor = rank m.ops n) (cut : m.split op = (.ok s, d)) :
    ∃ s', m'.split op = (.ok s', d) ∧ s.Thinned f s' := by
  have body := thinned.forkBody here enabled cursor cursor'
  have same := split_congr op thinned.dish
  rw [cut] at same
  obtain ⟨separator, delimiter, ignoring, more, v, parts, -, -, -, rfl⟩ := split_ok cut
  refine ⟨_, same, ?_, rfl, thinned.addressable, ?_⟩
  · dsimp only
    rw [body]
  · intro p within
    obtain ⟨inside, ranks⟩ := rank_forkBody here enabled cursor within
    have whole := thinned.offset (n + 1 + p) inside
    have place : m.frame.offset + (n : Int) + 1 + p =
        m.frame.offset + ((n + 1 + p : Nat) : Int) := by omega
    change f (m.frame.offset + m.frame.cursor + 1 + p) =
      m'.frame.offset + m'.frame.cursor + 1 + rank m.forkBody p
    rw [cursor, cursor', place, whole, ranks]
    omega

namespace Split

variable {s s' : Split} {v : Value} {h h' h₁ : Harvest} {halt : Option Halt}

/-- A tranche stops at places that correspond, or for the same reason. -/
theorem reach_thinned {stop stop' : Stop} (splits : s.Thinned f s') (lies : stop.Lies s.body)
    (stops : stop.Renumbered s.body stop') :
    (∃ p, s.reach stop = .ok p ∧ s'.reach stop' = .ok (rank s.body p.toNat : Nat)) ∨
      ∃ halt halt', s.reach stop = .error halt ∧ s'.reach stop' = .error halt' ∧
        halt.Alike halt' := by
  have ignoring : s'.ignoring = s.ignoring := by rw [splits.rest]
  cases stops with
  | «at» p => exact .inl ⟨p, rfl, rfl⟩
  | broken b =>
    obtain ⟨front, op, here, enabled⟩ := lies
    rw [reach_broken, reach_broken, ignoring]
    split
    · refine .inl ⟨b.place + 1, rfl, ?_⟩
      have place : (b.place + 1).toNat = b.place.toNat + 1 := by omega
      rw [place, rank_enabled here enabled]
      rfl
    · exact .inr ⟨_, _, rfl, rfl, .broken rfl rfl⟩

theorem remark_thinned {l l' : Ledger} {stop stop' : Stop} (ledger : l.Thinned f l')
    (stops : stop.Renumbered s.body stop') :
    (remark number stop l).Thinned f (remark number stop' l') := by
  cases stops with
  | «at» p => exact ledger
  | broken b => exact ledger.note

/-- The machines that run a tranche in both. -/
theorem Thinned.next (splits : s.Thinned f s') (harvests : h.Thinned f s s' h') (number : Nat)
    (dish : Dish) : (s.next number dish h).Thinned f (s'.next number dish h') := by
  have ops : (s.next number dish h).ops = s.body := restore_akin harvests.akin
  have ops' : (s'.next number dish h').ops = kept s.body := by
    refine (restore_akin harvests.akin').trans ?_
    rw [splits.rest]
  constructor
  case ops => rw [ops, ops']
  case dish => rfl
  case jumps => exact splits.jumps
  case addressable => exact splits.addressable
  case offset =>
    rw [ops]
    exact splits.offset
  case ledger =>
    exact harvests.ledger.note
  case last => rfl
  case completed =>
    intro p last
    cases last

/-- The runs of a tranche end at places that correspond, or with the same failure. -/
theorem Thinned.tranche {dish : Dish} {stop : Stop} (simulates : Simulates f size)
    (small : s.body.length < size) (budgeted : Budgeted s.body) (unpaused : Unpaused s.body)
    (splits : s.Thinned f s') (harvests : h.Thinned f s s' h')
    (ran : Machine.run 0 (s.next number dish h) = (stop, m)) :
    ∃ stop' m', Machine.run 0 (s'.next number dish h') = (stop', m') ∧
      stop.Lies s.body ∧ stop.Renumbered s.body stop' ∧ OpsAkin s.body m.ops ∧
      OpsAkin s'.body m'.ops ∧ m.Thinned f m' := by
  have ops : (s.next number dish h).ops = s.body := restore_akin harvests.akin
  have ops' : (s'.next number dish h').ops = s'.body := restore_akin harvests.akin'
  have both := simulates _ _ (by rwa [ops]) (by rwa [ops]) (by rwa [ops])
    (splits.next harvests number dish)
  have lies := regular_run.lies (s.next number dish h)
  have kept := regular_run.shape (s.next number dish h)
  have kept' := regular_run.shape (s'.next number dish h')
  rw [ops] at lies kept
  rw [ops'] at kept'
  rw [ran] at both lies kept
  obtain ⟨stop', m', ran'⟩ : ∃ stop' m', Machine.run 0 (s'.next number dish h') = (stop', m') :=
    ⟨_, _, rfl⟩
  rw [ran'] at both kept'
  cases both with
  | ended stops machines =>
    exact ⟨stop', m', ran', lies, stops.akin kept, kept, kept', machines⟩

/-- A tranche brings the same in both. -/
theorem Serve.thinned (simulates : Simulates f size) (small : s.body.length < size)
    (budgeted : Budgeted s.body) (unpaused : Unpaused s.body) (splits : s.Thinned f s')
    (harvests : h.Thinned f s s' h') (serve : s.Serve (Machine.run 0) number v h halt h₁) :
    ∃ halt' h₁', s'.Serve (Machine.run 0) number v h' halt' h₁' ∧
      Brought f s s' halt h₁ halt' h₁' := by
  have op : s'.op = s.op := by rw [splits.rest]
  have delimiter : s'.delimiter = s.delimiter := by rw [splits.rest]
  have noted : (h.ledger.note (.tranche number s.parts.length)).Thinned f
      (h'.ledger.note (.tranche number s'.parts.length)) :=
    harvests.ledger.note
  -- Whether the Fork goes on after a tranche is the same in both, and so is the text it then takes.
  cases serve with
  | unmade made =>
    rw [← op] at made
    exact ⟨_, _, .unmade made, .halted (.failed _) noted⟩
  | @stopped dish stop m halt made ran reach =>
    obtain ⟨stop', m', ran', lies, stops, -, -, machines⟩ :=
      splits.tranche simulates small budgeted unpaused harvests ran
    rw [← op] at made
    rcases reach_thinned splits lies stops with ⟨p, onward, -⟩ | ⟨halt₁, halt', ended, ended', alike⟩
    · rw [onward] at reach
      cases reach
    · rw [ended] at reach
      cases reach
      exact ⟨_, _, .stopped made ran' ended', .halted alike machines.ledger⟩
  | @unread dish stop m progress e made ran reach get =>
    obtain ⟨stop', m', ran', lies, stops, -, -, machines⟩ :=
      splits.tranche simulates small budgeted unpaused harvests ran
    rw [← op] at made get
    rw [← machines.dish] at get
    rcases reach_thinned splits lies stops with ⟨p, onward, onward'⟩ | ⟨halt₁, halt', ended, -⟩
    · refine ⟨_, _, .unread made ran' onward' get, .halted (.failed _) ?_⟩
      exact remark_thinned machines.ledger stops
    · rw [ended] at reach
      cases reach
  | @brought dish d stop m progress w made ran reach get =>
    obtain ⟨stop', m', ran', lies, stops, akin, akin', machines⟩ :=
      splits.tranche simulates small budgeted unpaused harvests ran
    rw [← op] at made get
    rw [← machines.dish] at get
    rcases reach_thinned splits lies stops with ⟨p, onward, onward'⟩ | ⟨halt₁, halt', ended, -⟩
    · rw [onward] at reach
      cases reach
      refine ⟨_, _, .brought made ran' onward' get, .on ⟨?_, ?_, rfl, akin, akin', ?_⟩⟩
      · dsimp only
        rw [harvests.output, delimiter]
      · exact reach_lies lies onward
      · exact remark_thinned machines.ledger stops
    · rw [ended] at reach
      cases reach

theorem serveAll_thinned (simulates : Simulates f size) (small : s.body.length < size)
    (budgeted : Budgeted s.body) (unpaused : Unpaused s.body) (splits : s.Thinned f s')
    (number : Nat) (vs : List Value) (harvests : h.Thinned f s s' h')
    (served : s.serveAll (Machine.run 0) number vs h = (halt, h₁)) :
    ∃ halt' h₁', s'.serveAll (Machine.run 0) number vs h' = (halt', h₁') ∧
      Brought f s s' halt h₁ halt' h₁' := by
  induction vs generalizing number h h' with
  | nil =>
    obtain ⟨rfl, rfl⟩ : none = halt ∧ h = h₁ := by simpa [serveAll] using served
    exact ⟨none, h', rfl, .on harvests⟩
  | cons v vs ih =>
    obtain ⟨halt₂, h₂, serve⟩ := serve_serve (Machine.run 0) s number v h
    obtain ⟨halt₂', h₂', serve', brought⟩ :=
      serve.thinned simulates small budgeted unpaused splits harvests
    rw [serveAll, serve.eq] at served
    rw [serveAll, serve'.eq]
    cases brought with
    | on harvests₂ => exact ih (number + 1) harvests₂ served
    | @halted halt₂ halt₂' _ _ alike ledger =>
      obtain ⟨rfl, rfl⟩ : some halt₂ = halt ∧ h₂ = h₁ := by simpa using served
      exact ⟨_, _, rfl, .halted alike ledger⟩

end Split

-- What the two Forks come to: they go on at places that correspond, or halt for the same reason.
inductive Served (f : Int → Int) :
    Except Halt Int → Machine → Except Halt Int → Machine → Prop where
  | on {j j' : Int} {k k' : Machine} (level : Level k.ops (j + 1) (j' + 1))
      (machines : k.Thinned f k') : Served f (.ok j) k (.ok j') k'
  | halted {halt halt' : Halt} {k k' : Machine} (alike : halt.Alike halt')
      (machines : k.Thinned f k') : Served f (.error halt) k (.error halt') k'

/-- A Fork that comes to its end leaves the two at places that correspond. -/
theorem level_joined {progress progress' : Int} (here : m.ops[n]? = some op)
    (enabled : op.disabled = false) (cursor : m.frame.cursor = n)
    (far : 0 ≤ progress ∧ progress ≤ m.forkBody.length)
    (moved : progress' = rank m.forkBody progress.toNat) :
    Level m.ops (n + progress + 1) (rank m.ops n + progress' + 1) := by
  have within : progress.toNat ≤ m.forkBody.length := by omega
  obtain ⟨inside, ranks⟩ := rank_forkBody here enabled cursor within
  have place : ((n : Int) + progress + 1).toNat = n + 1 + progress.toNat := by omega
  refine Level.of_rank (by omega) (by omega) ?_
  rw [place, ranks, moved]
  omega

theorem Serves.thinned {r : Except Halt Int} (simulates : Simulates f m.ops.length)
    (budgeted : Budgeted m.ops) (unpaused : Unpaused m.ops) (thinned : m.Thinned f m')
    (here : m.ops[n]? = some op) (enabled : op.disabled = false)
    (serves : m.Serves (Machine.run 0) n op r k) :
    ∃ r' k', m'.Serves (Machine.run 0) (rank m.ops n) op r' k' ∧ Served f r k r' k' := by
  have inside := (List.getElem?_eq_some_iff.mp here).1
  have moved : ∀ d, (m.forking n d).Thinned f (m'.forking (rank m.ops n) d) :=
    fun d => { thinned with dish := rfl }
  -- The operations of the Fork are among those after it.
  have among : ∀ {d s}, (m.forking n d).split op = (.ok s, d) →
      s.body.length < m.ops.length ∧ Budgeted s.body ∧ Unpaused s.body := by
    intro d s cut
    have subset : s.body ⊆ (m.forking n d).ops := split_subset cut
    obtain ⟨separator, delimiter, ignoring, more, v, parts, -, -, -, rfl⟩ := split_ok cut
    have length := forkBody_length m n d (by omega)
    refine ⟨by dsimp only; omega, budgeted.subset subset, ?_⟩
    exact unpaused.subset subset
  have tranches : ∀ {d s s' halt h}, (m.forking n d).split op = (.ok s, d) → s.Thinned f s' →
      s.serveAll (Machine.run 0) 1 s.parts (s.opening m.ledger) = (halt, h) →
      ∃ halt' h', s'.serveAll (Machine.run 0) 1 s'.parts (s'.opening m'.ledger) = (halt', h') ∧
        Split.Brought f s s' halt h halt' h' := by
    intro d s s' halt h cut splits served
    obtain ⟨small, budgeted', unpaused'⟩ := among cut
    have parts : s'.parts = s.parts := by rw [splits.rest]
    have opening : (s.opening m.ledger).Thinned f s s' (s'.opening m'.ledger) :=
      ⟨rfl, ⟨Int.le_refl 0, Int.natCast_nonneg _⟩, rfl, .refl _, .refl _, thinned.ledger⟩
    rw [parts]
    exact Split.serveAll_thinned simulates small budgeted' unpaused' splits 1 _ opening served
  -- The two Forks serve the same parts, each with the operations of its own list.
  cases serves with
  | @unsplit v d e get cut =>
    have same := split_congr op (moved d).dish
    rw [cut] at same
    rw [← thinned.dish] at get
    exact ⟨_, _, .unsplit get same, .halted (.failed e) (moved d)⟩
  | @halted v d s halt h get cut served =>
    obtain ⟨s', cut', splits⟩ := (moved d).split here enabled rfl rfl cut
    obtain ⟨halt', h', served', brought⟩ := tranches cut splits served
    rw [← thinned.dish] at get
    cases brought with
    | halted alike ledger =>
      exact ⟨_, _, .halted get cut' served', .halted alike { moved d with ledger := ledger }⟩
  | @unset v d s h e get cut served set =>
    obtain ⟨s', cut', splits⟩ := (moved d).split here enabled rfl rfl cut
    obtain ⟨halt', h', served', brought⟩ := tranches cut splits served
    rw [← thinned.dish] at get
    cases brought with
    | on harvests =>
      rw [← harvests.output] at set
      exact ⟨_, _, .unset get cut' served' set,
        .halted (.failed _) { moved d with ledger := harvests.ledger }⟩
  | @joined v d d' s h get cut served set =>
    obtain ⟨s', cut', splits⟩ := (moved d).split here enabled rfl rfl cut
    obtain ⟨halt', h', served', brought⟩ := tranches cut splits served
    rw [← thinned.dish] at get
    cases brought with
    | on harvests =>
      rw [← harvests.output] at set
      refine ⟨_, _, .joined get cut' served' set, .on ?_ ?_⟩
      · have body : s.body = (m.forking n d).forkBody := by
          obtain ⟨separator, delimiter, ignoring, more, w, parts, -, -, -, rfl⟩ := split_ok cut
          rfl
        have far := harvests.inside
        have progress := harvests.progress
        rw [body] at far progress
        exact level_joined (m := m.forking n d) here enabled rfl far progress
      · exact { thinned with dish := rfl, ledger := harvests.ledger }

theorem conclude_thinned {halt halt' : Halt} (alike : halt.Alike halt') (machines : k.Thinned f k') :
    Turn.Thinned f (k.conclude n op halt) (k'.conclude (rank k.ops n) op halt') := by
  unfold conclude
  cases alike with
  | failed e =>
    dsimp only
    split
    · exact .ended (.at n) { machines with dish := rfl }
    · exact .ended (.broken ⟨op.name, n, e⟩) machines
  | @broken b b' operation cause =>
    have same : ({ b' with place := rank k.ops n } : Breakdown) =
        { { b with place := (n : Int) } with place := rank k.ops n } := by
      rw [← operation, ← cause]
    dsimp only
    rw [same]
    exact .ended (.broken { b with place := (n : Int) }) machines

theorem Ready.thinned (ready : k.Ready 0 n op) (thinned : k.Thinned f k')
    (unpaused : Unpaused k.ops) : k'.Ready 0 (rank k.ops n) op := by
  have there : k.ops[n]? = some op := opAt_some (Int.natCast_nonneg n) ready.here
  have there' : k'.ops[rank k.ops n]? = some op := by
    rw [thinned.ops]
    exact kept_getElem? there ready.enabled
  have inside := (List.getElem?_eq_some_iff.mp there').1
  constructor
  case here =>
    rw [opAt_nonneg (Int.natCast_nonneg _) (by omega)]
    exact there'
  case enabled => exact ready.enabled
  case goes =>
    rintro ⟨pauses, -⟩
    rw [unpaused op (opAt_mem ready.here) ready.enabled] at pauses
    cases pauses
  case allowed => exact exceeded_unlimited (l := k'.ledger.count) thinned.ledger.limit'

theorem Thinned.enter (thinned : k.Thinned f k') (i i' : Int) (op : Operation) :
    (k.enter i op).Thinned f (k'.enter i' op) :=
  { thinned with
    ledger := thinned.ledger.count.note }

/-- After an operation was carried out in both, it is the one completed last. -/
theorem Thinned.complete (thinned : k.Thinned f k') (here : k.ops[n]? = some op)
    (enabled : op.disabled = false) :
    Machine.Thinned f { k with last := some n } { k' with last := some (rank k.ops n) } :=
  { thinned with
    last := rfl
    completed := by
      intro p last
      cases last
      exact ⟨op, here, enabled⟩ }

/-- A round passes over a disabled operation while the other machine stands still, or both do the
same. -/
theorem Rounds.thinned {t : Turn} (simulates : Simulates f k.ops.length) (budgeted : Budgeted k.ops)
    (unpaused : Unpaused k.ops) (front : 0 ≤ i) (level : Level k.ops i i')
    (thinned : k.Thinned f k') (rounds : k.Rounds (Machine.run 0) 0 i t) :
    (∃ k₁, t = .onward (i + 1) k₁ ∧ Level k₁.ops (i + 1) i' ∧ k₁.Thinned f k') ∨
      Turn.Thinned f t (k'.round (Machine.run 0) 0 i') := by
  obtain ⟨n, rfl⟩ := Int.eq_ofNat_of_zero_le front
  have moved : ∀ {op}, k.opAt? n = some op → i' = rank k.ops n :=
    fun here => level.within (opAt_lt here)
  have last : ∀ {op}, k.opAt? n = some op → place? k.ops.length n = some n :=
    fun here => place_of_nonneg (Int.natCast_nonneg n) (opAt_lt here)
  have last' : ∀ {op}, k'.opAt? (rank k.ops n) = some op →
      place? k'.ops.length (rank k.ops n) = some (rank k.ops n) :=
    fun here => place_of_nonneg (Int.natCast_nonneg _) (opAt_lt here)
  -- An enabled operation stands at its rank in the other list; only a disabled one has no counterpart.
  cases rounds with
  | completed beyond =>
    have beyond' : (k'.ops.length : Int) ≤ i' := by
      rw [thinned.ops]
      exact level.beyond beyond
    have both : k'.Rounds (Machine.run 0) 0 i' _ := .completed beyond'
    have all : k'.ops.length = rank k.ops k.ops.length := by
      rw [thinned.ops, rank_all (Nat.le_refl _)]
    rw [both.eq, all]
    refine .inr (.ended (.at k.ops.length) { thinned with ledger := ?_ })
    exact thinned.ledger.note
  | outside within missing =>
    rw [opAt_nonneg front within, List.getElem?_eq_none_iff] at missing
    omega
  | @skipped op here disabled =>
    have there : k.ops[n]? = some op := opAt_some front here
    have inside := opAt_lt here
    refine .inl ⟨_, rfl, ?_, { thinned with ledger := ?_ }⟩
    · refine Level.of_rank (by omega) (by change (n : Int) + 1 ≤ k.ops.length; omega) ?_
      have place : ((n : Int) + 1).toNat = n + 1 := by omega
      rw [place, moved here]
      change _ = ((rank k.ops (n + 1) : Nat) : Int)
      rw [rank_succ there, disabled]
      rfl
    · exact thinned.ledger.note_left
  | @paused op here enabled pauses =>
    rw [unpaused op (opAt_mem here) enabled] at pauses
    exact absurd pauses.1 (by decide)
  | exceeded here enabled goes excess =>
    have limited : k.ledger.limit = _ := exceeded_limit (l := k.ledger.count) excess
    rw [thinned.ledger.limit] at limited
    cases limited
  | @failed op e k₁ ready acts =>
    obtain ⟨k₁', acts', machines⟩ := acts.fails_thinned (thinned.enter n (rank k.ops n) op)
      (rank k.ops n)
    have both : k'.Rounds (Machine.run 0) 0 (rank k.ops n) _ :=
      .failed (ready.thinned thinned unpaused) acts'
    have ranks : rank k.ops n = rank k₁.ops n := (rank_akin acts.akin n).symm
    rw [moved ready.here, both.eq, ranks]
    exact .inr (conclude_thinned (.failed e) machines)
  | @acted op j k₁ ready acts =>
    have there : k.ops[n]? = some op := opAt_some front ready.here
    obtain ⟨j', k₁', acts', machines, next⟩ :=
      acts.goes_thinned (thinned.enter n (rank k.ops n) op) there ready.enabled
    have ready' := ready.thinned thinned unpaused
    have both : k'.Rounds (Machine.run 0) 0 (rank k.ops n) _ := .acted ready' acts'
    obtain ⟨op₁, there₁, enabled₁⟩ := enabled_akin acts.akin there ready.enabled
    have ranks : rank k.ops n = rank k₁.ops n := (rank_akin acts.akin n).symm
    rw [moved ready.here, both.eq, last ready.here, last' ready'.here, ranks]
    exact .inr (.onward next (machines.complete there₁ enabled₁))
  | @halted op halt k₁ ready fork serves =>
    have there : k.ops[n]? = some op := opAt_some front ready.here
    obtain ⟨r', k₁', serves', served⟩ := serves.thinned (m := k.enter n op) simulates budgeted
      unpaused (thinned.enter n (rank k.ops n) op) there ready.enabled
    cases served with
    | halted alike machines =>
      have both : k'.Rounds (Machine.run 0) 0 (rank k.ops n) _ :=
        .halted (ready.thinned thinned unpaused) fork serves'
      have ranks : rank k.ops n = rank k₁.ops n := by
        rw [serves.ops]
        rfl
      rw [moved ready.here, both.eq, ranks]
      exact .inr (conclude_thinned alike machines)
  | @served op j k₁ ready fork serves =>
    have there : k.ops[n]? = some op := opAt_some front ready.here
    obtain ⟨r', k₁', serves', served⟩ := serves.thinned (m := k.enter n op) simulates budgeted
      unpaused (thinned.enter n (rank k.ops n) op) there ready.enabled
    cases served with
    | on next machines =>
      have ready' := ready.thinned thinned unpaused
      have both : k'.Rounds (Machine.run 0) 0 (rank k.ops n) _ := .served ready' fork serves'
      have ops : k₁.ops = k.ops := serves.ops
      have ranks : rank k.ops n = rank k₁.ops n := by rw [ops]
      rw [moved ready.here, both.eq, last ready.here, last' ready'.here, ranks]
      exact .inr (.onward next (machines.complete (by rwa [ops]) ready.enabled))

/-- Rounds that finish the first execution finish the other one, which needs no more of them. -/
theorem drive_thinned (simulates : Simulates f m.ops.length) (budgeted : Budgeted m.ops)
    (unpaused : Unpaused m.ops) (fuel : Nat) (inv : Keeps 0 m i k) (level : Level k.ops i i')
    (thinned : k.Thinned f k')
    (finished : (k.drive (Machine.run 0) 0 fuel i).1 ≠ .unfinished) :
    Turn.Thinned f
      (.ended (k.drive (Machine.run 0) 0 fuel i).1 (k.drive (Machine.run 0) 0 fuel i).2)
      (.ended (k'.drive (Machine.run 0) 0 fuel i').1 (k'.drive (Machine.run 0) 0 fuel i').2) := by
  induction fuel generalizing i i' k k' with
  | zero => exact absurd rfl finished
  | succ fuel ih =>
    obtain ⟨t, rounds⟩ := rounds_round (Machine.run 0) 0 i k
    have kept := places.round regular_run inv rounds
    have length : m.ops.length = k.ops.length := inv.ops.length_eq
    -- One round here is none or one there.
    have step := rounds.thinned (by rwa [← length]) (budgeted.akin inv.ops)
      (Unpaused.akin unpaused inv.ops) (inv.front (Int.le_refl 0)) level thinned
    rcases step with ⟨k₁, rfl, level₁, thinned₁⟩ | both
    · -- The other machine stands still, and the round that it has saved does not matter.
      have moved : k.drive (Machine.run 0) 0 (fuel + 1) i =
          k₁.drive (Machine.run 0) 0 fuel (i + 1) := by
        rw [drive, rounds.eq]
      rw [moved] at finished ⊢
      have further := ih kept level₁ thinned₁ finished
      rw [drive_add 1 further.finished]
      exact further
    · unfold drive at finished ⊢
      rw [rounds.eq] at finished ⊢
      generalize k'.round (Machine.run 0) 0 i' = t' at both
      cases both with
      | ended stops machines => exact .ended stops machines
      | onward level₁ machines => exact ih kept level₁ machines finished

theorem run_thinned (f : Int → Int) (size : Nat) : Simulates f size := by
  induction size with
  | zero => exact fun m m' small => absurd small (Nat.not_lt_zero _)
  | succ size ih =>
    intro m m' small budgeted unpaused thinned
    -- The tranches of a Fork run lists that are shorter than this one.
    have simulates : Simulates f m.ops.length := by
      intro n n' smaller
      exact ih n n' (Nat.lt_of_lt_of_le smaller (Nat.le_of_lt_succ small))
    have begun : (m.note (.started m.ops.length 0)).Thinned f
        (m'.note (.started m'.ops.length 0)) :=
      { thinned with
        ledger := thinned.ledger.note }
    have level : Level m.ops 0 0 := Level.of_rank (Int.le_refl 0) (Int.natCast_nonneg _) rfl
    have finished := run_finishes (m := m) 0 budgeted
    have budgeted' : Budgeted m'.ops := by
      rw [thinned.ops]
      exact budgeted.subset (kept_subset m.ops)
    have finished' := run_finishes (m := m') 0 budgeted'
    rw [run_eq_drive] at finished finished' ⊢
    -- Both runs finish, so it does not matter that they are granted different rounds.
    have both := drive_thinned simulates budgeted unpaused _ (places.begins trivial) level begun
      finished
    rw [run_eq_drive 0 m', ← drive_agree both.finished finished']
    exact both

theorem fresh_thinned (ops : List Operation) (dish : Dish) :
    (fresh ops dish none).Thinned (fun i => rank ops i.toNat) (fresh (kept ops) dish none) := by
  constructor
  case ops => rfl
  case dish => rfl
  case jumps => rfl
  case addressable => rfl
  case offset =>
    intro n _
    change ((rank ops ((0 : Int) + n).toNat : Nat) : Int) = 0 + rank ops n
    rw [Int.zero_add, Int.zero_add]
    rfl
  case ledger => exact ⟨rfl, rfl, rfl, rfl, rfl⟩
  case last => rfl
  case completed => exact fun n last => by cases last

/-- Disabled operations are invisible. Without them a run ends in the same way, and leaves the same dish,
captured texts, count of steps and last completed operation; it publishes the same texts, and every
place is moved to the number of enabled operations before it. -/
theorem disabled_invisible (ops : List Operation) (dish : Dish) (budgeted : Budgeted ops)
    (unpaused : Unpaused ops) :
    let whole := (fresh ops dish none).run 0
    let thin := (fresh (kept ops) dish none).run 0
    whole.1.Renumbered ops thin.1 ∧
      thin.2.ops = kept whole.2.ops ∧ thin.2.dish = whole.2.dish ∧
      thin.2.ledger.registers = whole.2.ledger.registers ∧
      thin.2.ledger.steps = whole.2.ledger.steps ∧
      thin.2.ledger.publications =
        whole.2.ledger.publications.map (.relocate fun i => rank ops i.toNat) ∧
      thin.2.last = whole.2.last.map (rank ops) ∧
      thin.2.last.bind (thin.2.ops[·]?) = whole.2.last.bind (whole.2.ops[·]?) := by
  intro whole thin
  have thinned := fresh_thinned ops dish
  have both : Turn.Thinned (fun i => rank ops i.toNat) (.ended whole.1 whole.2)
      (.ended thin.1 thin.2) :=
    run_thinned _ (ops.length + 1) _ _ (Nat.lt_succ_self _) budgeted unpaused thinned
  -- Ranks are taken in what the run leaves of the list, where the same operations are disabled.
  have akin : OpsAkin ops whole.2.ops := (places.run (m := fresh ops dish none) trivial).ops
  have ranks : ∀ n, rank whole.2.ops n = rank ops n := rank_akin akin
  generalize whole = whole' at both akin ranks
  generalize thin = thin' at both
  obtain ⟨stop, k⟩ := whole'
  obtain ⟨stop', k'⟩ := thin'
  cases both with
  | ended stops machines =>
    refine ⟨stops.akin akin, machines.ops, machines.dish, machines.ledger.registers,
      machines.ledger.steps, machines.ledger.publications, ?_, ?_⟩
    · dsimp only
      rw [machines.last]
      congr 1
      funext n
      exact ranks n
    · dsimp only
      rw [machines.last, machines.ops]
      cases last : k.last with
      | none => rfl
      | some n =>
        obtain ⟨op, here, enabled⟩ := machines.completed n last
        rw [Option.map_some, Option.bind_some, Option.bind_some, here]
        exact kept_getElem? here enabled

def idle : List Operation :=
  ⟨"Label", [.text "again"], "string", "string", true, false, none⟩ :: twice.ops

theorem disabled_invisible_idle : Budgeted idle ∧ Unpaused idle ∧
    ((fresh idle twice.dish none).run 0).1.Renumbered idle (twice.run 0).1 ∧
    (twice.run 0).2.ledger.steps = ((fresh idle twice.dish none).run 0).2.ledger.steps := by
  have budgeted : Budgeted idle := by decide +kernel
  have unpaused : Unpaused idle := by decide +kernel
  have invisible := disabled_invisible idle twice.dish budgeted unpaused
  exact ⟨budgeted, unpaused, invisible.1, invisible.2.2.2.2.1⟩

end Kitchen.Run.Machine

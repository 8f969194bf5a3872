import Kitchen.Proofs.Run.Beside
import Kitchen.Proofs.Run.Disabled

/-!
What a Comment changes. It does nothing itself, but the dish is turned to text for it; a recipe in which
that cannot be read off the dish runs to the same end with the Comment as without.
-/
namespace Kitchen.Run

-- How two runs end alike: both return, or the same operation broke both for the same cause.
inductive Stop.Agrees : Stop → Stop → Prop where
  | returned (p p' : Int) : Agrees (.at p) (.at p')
  | broken {b b' : Breakdown} (operation : b'.operation = b.operation) (cause : b'.cause = b.cause) :
      Agrees (.broken b) (.broken b')

/-- Two runs end alike if both do beside a third one. -/
theorem Stop.Agrees.of_renumbered {ops ops' : List Operation} {stop stop' thin : Stop}
    (stops : stop.Renumbered ops thin) (stops' : stop'.Renumbered ops' thin) :
    stop.Agrees stop' := by
  cases stops with
  | «at» p =>
    generalize ht : Stop.at _ = thin at stops'
    cases stops' with
    | «at» p' => exact .returned p p'
    | broken b' => cases ht
  | broken b =>
    generalize ht : Stop.broken _ = thin at stops'
    cases stops' with
    | «at» p' => cases ht
    | broken b' =>
      have same := Stop.broken.inj ht
      exact .broken (congrArg Breakdown.operation same).symm (congrArg Breakdown.cause same).symm

namespace Machine

variable {p i j : Int} {n : Nat} {tags : List String} {op : Operation} {m m' k k' : Machine}

-- Wherever a run comes to an operation at the place `p` of the outermost list, the dish can be turned to the
-- type that the operation asks for, and gives the same afterwards if it is asked for any of the types.
def Harmless (p : Int) (tags : List String) (m : Machine) : Prop :=
  ∀ start' m' n i k op, Arises 0 m start' m' → Passes start' m' n i k → k.Ready start' i op →
    k.frame.offset + i = p → ∃ v d, k.dish.get op.input = .ok (v, d) ∧ k.dish.Reads tags d

theorem Harmless.opens {child : Machine} (harmless : m.Harmless p tags) (passes : Passes 0 m n i k)
    (opens : k.Opens (Machine.run 0) 0 i child) : child.Harmless p tags := by
  intro start' m' n' i' k' op arises
  exact harmless start' m' n' i' k' op (Arises.inner (.tranche .outermost passes opens) arises)

inductive Paired (p : Int) (tags : List String) : Turn → Turn → Prop where
  | ended {stop : Stop} {m m' : Machine} (machines : m.Beside p tags m') :
      Paired p tags (.ended stop m) (.ended stop m')
  | onward {i : Int} {m m' : Machine} (machines : m.Beside p tags m') :
      Paired p tags (.onward i m) (.onward i m')

theorem Beside.opAt (beside : k.Beside p tags k') (here : k.opAt? n = some op) :
    ∃ op', k'.opAt? n = some op' ∧ (op' = op ∨ op.Silenced op' ∧ k.frame.offset + n = p) := by
  obtain ⟨op', there, related⟩ := beside.ops.getElem? (opAt_some (Int.natCast_nonneg n) here)
  have within : (n : Int) < k'.ops.length := by
    rw [beside.size]
    exact opAt_lt here
  refine ⟨op', ?_, related.imp_right fun ⟨silenced, place⟩ => ⟨silenced, by omega⟩⟩
  rw [opAt_nonneg (Int.natCast_nonneg n) within]
  exact there

theorem Beside.enabled (beside : k.Beside p tags k') (here : k.opAt? n = some op)
    (enabled : op.disabled = false) : k'.opAt? n = some op := by
  obtain ⟨op', there, rfl | ⟨silenced, -⟩⟩ := beside.opAt here
  · exact there
  · rw [silenced.disabled] at enabled
    cases enabled

theorem Beside.ready (beside : k.Beside p tags k') (ready : k.Ready 0 n op) : k'.Ready 0 n op where
  here := beside.enabled ready.here ready.enabled
  enabled := ready.enabled
  goes := ready.goes
  allowed := exceeded_unlimited (l := k'.ledger.count) beside.ledger.free'

theorem conclude_beside (beside : k.Beside p tags k') (i : Int) (op : Operation) (halt : Halt) :
    Paired p tags (k.conclude i op halt) (k'.conclude i op halt) := by
  unfold conclude
  cases halt with
  | failed f =>
    dsimp only
    split
    · exact .ended (beside.served _)
    · exact .ended beside
  | _ => exact .ended beside

/-- A Comment whose dish is no different as text does nothing. -/
theorem Ready.comment {v : Value} {d : Dish} (ready : k.Ready 0 n op)
    (comment : op.primitive? = some .comment) (get : k.dish.get op.input = .ok (v, d)) :
    k.round (Machine.run 0) 0 n = .onward (n + 1)
      { (k.enter n op).moveTo n with dish := d, last := place? k.ops.length n } := by
  have get : (k.enter n op).dish.get op.input = .ok (v, d) := get
  have decided : Deed.ofPrimitive (k.enter n op).outlook op d .comment = (.ok .pass, d) := rfl
  have acts : (k.enter n op).Acts n op _ _ := .enacted comment (by decide) get decided
  exact (Rounds.acted ready acts).eq

theorem Rounds.beside {t : Turn} (beside : k.Beside p tags k') (texts : "string" ∈ tags)
    (harmless : ∀ op, k'.Ready 0 n op → k'.frame.offset + n = p →
      ∃ v d, k'.dish.get op.input = .ok (v, d) ∧ k'.dish.Reads tags d)
    (inner : ∀ child child', k.Opens (Machine.run 0) 0 n child →
      k'.Opens (Machine.run 0) 0 n child' → child.Beside p tags child' →
      InStep p tags (Machine.run 0 child) (Machine.run 0 child'))
    (rounds : k.Rounds (Machine.run 0) 0 n t) :
    Paired p tags t (k'.round (Machine.run 0) 0 n) := by
  have size := beside.size
  -- The two differ at the place of the Comment alone: there one passes over it, and one carries it out.
  cases rounds with
  | completed beyond =>
    rw [← size] at beyond ⊢
    have both : k'.Rounds (Machine.run 0) 0 n _ := .completed beyond
    rw [both.eq]
    exact .ended (beside.note _ _)
  | outside within missing =>
    -- There is an operation at every place from the front to the end.
    rw [opAt_nonneg (Int.natCast_nonneg n) within, List.getElem?_eq_none_iff] at missing
    omega
  | @skipped op here disabled =>
    obtain ⟨op', there, rfl | ⟨silenced, place⟩⟩ := beside.opAt here
    · have both : k'.Rounds (Machine.run 0) 0 n _ := .skipped there disabled
      rw [both.eq]
      exact .onward (beside.note _ _)
    · -- The Comment is carried out in the other machine, and turns its dish to text.
      have ready : k'.Ready 0 n op' := by
        refine ⟨there, silenced.enabled, ?_, ?_⟩
        case refine_2 => exact exceeded_unlimited (l := k'.ledger.count) beside.ledger.free'
        rintro ⟨pauses, -⟩
        rw [silenced.goes] at pauses
        cases pauses
      rw [← beside.offset] at place
      obtain ⟨v, d, get, reads⟩ := harmless op' ready place
      rw [ready.comment silenced.comment' get]
      refine .onward { beside with dish := ?_, ledger := ?_ }
      · exact fun tag mem => (reads tag mem).trans (beside.dish tag mem)
      · exact ⟨beside.ledger.free, beside.ledger.free', beside.ledger.registers⟩
  | paused here enabled pauses =>
    have both : k'.Rounds (Machine.run 0) 0 n _ :=
      .paused (beside.enabled here enabled) enabled pauses
    rw [both.eq]
    exact .ended (beside.note _ _)
  | exceeded here enabled goes excess =>
    rw [exceeded_unlimited (l := k.ledger.count) beside.ledger.free] at excess
    cases excess
  | @failed op f k₁ ready acts =>
    obtain ⟨k₁', acts', machines⟩ := acts.beside (beside.enter n op op) (opAt_mem ready.here)
      ready.enabled
    have both : k'.Rounds (Machine.run 0) 0 n _ := .failed (beside.ready ready) acts'
    rw [both.eq]
    exact conclude_beside machines _ _ _
  | @acted op j k₁ ready acts =>
    obtain ⟨k₁', acts', machines⟩ := acts.beside (beside.enter n op op) (opAt_mem ready.here)
      ready.enabled
    have both : k'.Rounds (Machine.run 0) 0 n _ := .acted (beside.ready ready) acts'
    rw [both.eq]
    exact .onward (machines.complete _ _)
  | @halted op halt k₁ ready fork serves =>
    have ready' := beside.ready ready
    obtain ⟨k₁', serves', machines⟩ := serves.beside (beside.enter n op op) (opAt_mem ready.here)
      ready.enabled fork texts regular_run.shape fun v d s s' child child' get get' cut cut' opens opens' =>
        inner child child' (.intro ready fork get cut opens) (.intro ready' fork get' cut' opens')
    have both : k'.Rounds (Machine.run 0) 0 n _ := .halted ready' fork serves'
    rw [both.eq]
    exact conclude_beside machines _ _ _
  | @served op j k₁ ready fork serves =>
    have ready' := beside.ready ready
    obtain ⟨k₁', serves', machines⟩ := serves.beside (beside.enter n op op) (opAt_mem ready.here)
      ready.enabled fork texts regular_run.shape fun v d s s' child child' get get' cut cut' opens opens' =>
        inner child child' (.intro ready fork get cut opens) (.intro ready' fork get' cut' opens')
    have both : k'.Rounds (Machine.run 0) 0 n _ := .served ready' fork serves'
    rw [both.eq]
    exact .onward (machines.complete _ _)

/-- Two machines take the same rounds if each pair of their tranches ends in step. -/
theorem drive_beside (texts : "string" ∈ tags) (harmless : m'.Harmless p tags) (fuel : Nat)
    (keeps : Keeps 0 m i k) (passes : Passes 0 m' n i k') (beside : k.Beside p tags k')
    (inner : ∀ i k child child', Keeps 0 m i k → 0 ≤ i → k.Opens (Machine.run 0) 0 i child →
      child.Beside p tags child' → child'.Harmless p tags →
      InStep p tags (Machine.run 0 child) (Machine.run 0 child')) :
    InStep p tags (k.drive (Machine.run 0) 0 fuel i) (k'.drive (Machine.run 0) 0 fuel i) := by
  -- The induction is on the rounds granted. That the second machine is one that the run of `m'` passes
  -- is carried along, since what is harmless was said of those.
  induction fuel generalizing n i k k' with
  | zero => exact ⟨rfl, beside⟩
  | succ fuel ih =>
    obtain ⟨t, rounds⟩ := rounds_round (Machine.run 0) 0 i k
    have kept := places.round regular_run keeps rounds
    have front := keeps.front (Int.le_refl 0)
    obtain ⟨place, rfl⟩ := Int.eq_ofNat_of_zero_le front
    have paired := rounds.beside beside texts
      (fun op ready => harmless 0 m' n place k' op .outermost passes ready)
      (fun child child' opens opens' machines =>
        inner place k child child' keeps front opens machines (harmless.opens passes opens'))
    obtain ⟨t', round'⟩ : ∃ t', k'.round (Machine.run 0) 0 place = t' := ⟨_, rfl⟩
    rw [round'] at paired
    unfold drive
    rw [rounds.eq, round']
    cases paired with
    | ended machines => exact ⟨rfl, machines⟩
    | onward machines =>
      obtain ⟨n', -, further⟩ := passes.onward round'
      exact ih kept further machines

/-- A run in which the Comment is passed over and one in which it is carried out end in step. -/
theorem run_beside (texts : "string" ∈ tags) (size : Nat) (small : m.ops.length < size)
    (beside : m.Beside p tags m') (harmless : m'.Harmless p tags) :
    InStep p tags (m.run 0) (m'.run 0) := by
  -- The list of a tranche is shorter than that of its Fork, and what is harmless in a run is so in it.
  induction size generalizing m m' with
  | zero => exact absurd small (Nat.not_lt_zero _)
  | succ size ih =>
    have granted : rounds m'.ops m'.ledger.limit = rounds m.ops m.ledger.limit := by
      rw [beside.ledger.free, beside.ledger.free', beside.ops.rounds]
    rw [run_eq_drive, run_eq_drive, granted]
    refine drive_beside texts harmless _ (places.begins trivial) .begins (beside.note _ _) ?_
    intro i k child child' keeps front opens machines harmless'
    have length : m.ops.length = k.ops.length := keeps.ops.length_eq
    have shorter := (opens.length regular_run.shape).2 front
    exact ih (by omega) machines harmless'

section

variable {before after : List Operation}

/-- The insertion of a Comment that is passed over cannot be told by the enabled operations. -/
theorem kept_insert (disabled : op.disabled = true) :
    kept (before ++ op :: after) = kept (before ++ after) := by
  rw [kept_append, kept_append, kept_cons, disabled, if_pos rfl]

theorem mem_insert {other : Operation} (mem : op ∈ before ++ other :: after) :
    op = other ∨ op ∈ before ++ after := by
  simp only [List.mem_append, List.mem_cons] at mem ⊢
  tauto

theorem budgeted_insert (budgeted : Budgeted (before ++ after))
    (comment : op.primitive? = some .comment) : Budgeted (before ++ op :: after) := by
  intro op' mem budget here
  rcases mem_insert mem with rfl | mem
  · simp only [Operation.budget?, comment] at here
    cases here
  · exact budgeted op' mem budget here

theorem unpaused_insert (unpaused : Unpaused (before ++ after)) (disabled : op.disabled = true) :
    Unpaused (before ++ op :: after) := by
  intro op' mem enabled
  rcases mem_insert mem with rfl | mem
  · rw [disabled] at enabled
    cases enabled
  · exact unpaused op' mem enabled

/-- Runs with and without a Comment begin in step. -/
theorem fresh_beside {other : Operation} (silenced : op.Silenced other) (dish : Dish)
    (asks : ∀ op ∈ before ++ after, op.input ∈ tags ∧ op.Textual) :
    (fresh (before ++ op :: after) dish none).Beside before.length tags
      (fresh (before ++ other :: after) dish none) where
  ops := by
    change Muted ((before.length : Int) - 0) _ _
    rw [Int.sub_zero]
    exact Muted.insert silenced before after
  dish _ _ := rfl
  jumps := rfl
  addressable := rfl
  offset := rfl
  ledger := ⟨rfl, rfl, rfl⟩
  asks op' mem enabled := by
    rcases mem_insert mem with rfl | mem
    · rw [silenced.disabled] at enabled
      cases enabled
    · exact asks op' mem

end

/-- A run beside that of the enabled operations alone. -/
theorem run_kept {ops : List Operation} (dish : Dish) (budgeted : Budgeted ops)
    (unpaused : Unpaused ops) :
    let whole := (fresh ops dish none).run 0
    let thin := (fresh (kept ops) dish none).run 0
    whole.1.Renumbered whole.2.ops thin.1 ∧
      whole.2.Thinned (fun i => rank ops i.toNat) thin.2 :=
  (run_thinned _ (ops.length + 1) _ _ (Nat.lt_succ_self _) budgeted unpaused
    (fresh_thinned ops dish)).ends

def OfText (op : Operation) : Prop :=
  op.input = "string" ∧ op.output = "string"

instance (op : Operation) : Decidable (OfText op) :=
  inferInstanceAs (Decidable (op.input = "string" ∧ op.output = "string"))

theorem OfText.akin {a b : Operation} (same : a.Akin b) (text : OfText a) : OfText b := by
  unfold OfText
  rw [same.rest]
  exact text

theorem Acts.text {j : Int} (text : OfText op) (acts : m.Acts i op (.ok j) k) :
    k.dish.tag = "string" := by
  generalize hr : Except.ok j = r at acts
  cases acts with
  | produced ordinary get made =>
    obtain ⟨out, -, set⟩ := op.produce_ok made
    exact (Dish.set_tag set).trans text.2
  | @enacted p v d d' deed primitive other get decided =>
    rw [enact_dish]
    rcases Deed.ofPrimitive_dish m.outlook op d p with same | ⟨w, turned⟩
    · rw [decided] at same
      dsimp only at same
      rw [same]
      exact (Dish.get_tag get).trans text.1
    · rw [decided] at turned
      exact Dish.get_tag turned
  | _ => cases hr

theorem Serves.text {run : Machine → Stop × Machine} {j : Int} (text : OfText op)
    (serves : m.Serves run i op (.ok j) k) : k.dish.tag = "string" := by
  generalize hr : Except.ok j = r at serves
  cases serves with
  | joined get cut served set => exact (Dish.set_tag set).trans text.2
  | _ => cases hr

theorem Opens.text {child : Machine} (texts : ∀ op ∈ k.ops, OfText op)
    (opens : k.Opens (Machine.run 0) i j child) : child.dish.tag = "string" := by
  cases opens with
  | @intro op v d s _ ready fork get cut opens =>
    obtain ⟨separator, delimiter, ignoring, more, w, parts, -, -, -, rfl⟩ := split_ok cut
    cases opens with
    | intro parts served made => exact (Dish.make_tag made).trans (texts op (opAt_mem ready.here)).1

/-- In a recipe of texts the dish is text at every round. -/
theorem Passes.text {start : Int} (texts : ∀ op ∈ m.ops, OfText op) (begun : m.dish.tag = "string")
    (passes : Passes start m n i k) : k.dish.tag = "string" := by
  induction passes with
  | begins => exact begun
  | skips earlier here disabled ih => exact ih
  | dispatches earlier ready onward ih =>
    rcases (rounds_iff.mpr onward).onward with
      ⟨op, -, -, -, rfl⟩ | ⟨op, j, k₁, ready, completes, -, rfl⟩
    · exact ih
    · -- Every operation leaves text behind, and what comes with references is one of texts still.
      have text := earlier.all OfText.akin texts op (opAt_mem ready.here)
      have read : k₁.dish.tag = "string" := by
        cases completes with
        | acts acts => exact acts.text text
        | serves fork serves => exact serves.text text
      exact read

/-- In a recipe of texts every tranche begins with a text. -/
theorem Arises.text {start start' : Int} (texts : ∀ op ∈ m.ops, OfText op)
    (begun : m.dish.tag = "string") (arises : Arises start m start' m') : m'.dish.tag = "string" := by
  induction arises with
  | outermost => exact begun
  | tranche outer passes opens ih =>
    exact opens.text (passes.all OfText.akin (outer.all OfText.akin texts))

/-- A Comment that only comes upon texts and bytes of texts is harmless to operations that ask for text
or bytes. -/
theorem harmless_of_legible (kinds : ∀ tag ∈ tags, tag = "string" ∨ tag = "byteArray")
    (legible : ∀ start' m' n i k op, Arises 0 m start' m' → Passes start' m' n i k →
      k.Ready start' i op → k.frame.offset + i = p → op.input = "string" ∧ k.dish.Legible) :
    m.Harmless p tags := by
  intro start' m' n i k op arises passes ready place
  obtain ⟨input, legible⟩ := legible start' m' n i k op arises passes ready place
  rw [input]
  exact legible.reads kinds

/-- In a recipe of texts that begins with a text, there is nothing but text to come upon. -/
theorem harmless_of_text (kinds : ∀ tag ∈ tags, tag = "string" ∨ tag = "byteArray")
    (texts : ∀ op ∈ m.ops, OfText op) (begun : m.dish.tag = "string") (p : Int) :
    m.Harmless p tags := by
  refine harmless_of_legible kinds fun start' m' n i k op arises passes ready _ => ?_
  have inner := arises.all OfText.akin texts
  have text : k.dish.tag = "string" := passes.text inner (arises.text texts begun)
  refine ⟨(passes.all OfText.akin inner op (opAt_mem ready.here)).1, ?_⟩
  obtain ⟨v, tag⟩ : ∃ v, k.dish = ⟨v, "string"⟩ := ⟨k.dish.value, by rw [← text]⟩
  rw [tag]
  exact .text v

def output? (m : Machine) : Option String :=
  match (m.run 0).2.dish.get "string" with
  | .ok (.text s, _) => some s
  | _ => none

def remarked : Operation :=
  ⟨"Comment", [.text "note"], "string", "string", false, false, none⟩

/-- A Comment is inert where the dish is no different as text. Inserted at any place of a compiled recipe
that does not pause and whose budgets are whole numbers, it changes neither whether a run returns or
why it is broken, nor the output text, nor the texts that are captured, if wherever the run comes to it
the dish gives the same afterwards to every operation of the recipe and as text. -/
theorem comment_inert {c : Catalog} {es : List Entry} {before after : List Operation}
    {comment : Operation} {dish : Dish} (compiled : Assembly.operations c es = .ok (before ++ after))
    (budgeted : Budgeted (before ++ after)) (unpaused : Unpaused (before ++ after))
    (primitive : comment.primitive? = some .comment) (enabled : comment.disabled = false)
    (goes : comment.pauses = false)
    (harmless : (fresh (before ++ comment :: after) dish none).Harmless before.length
      ("string" :: (before ++ after).map (·.input))) :
    let plain := (fresh (before ++ after) dish none).run 0
    let commented := (fresh (before ++ comment :: after) dish none).run 0
    plain.1.Agrees commented.1 ∧ commented.2.dish.get "string" = plain.2.dish.get "string" ∧
      commented.2.ledger.registers = plain.2.ledger.registers := by
  intro plain commented
  let passive : Operation := { comment with disabled := true }
  let muted := (fresh (before ++ passive :: after) dish none).run 0
  let tags := "string" :: (before ++ after).map (·.input)
  have texts : "string" ∈ tags := List.mem_cons_self
  have silenced : passive.Silenced comment := ⟨primitive, primitive, rfl, enabled, goes⟩
  have asks : ∀ op ∈ before ++ after, op.input ∈ tags ∧ op.Textual := fun op mem =>
    ⟨List.mem_cons_of_mem _ (List.mem_map_of_mem mem), Assembly.operations_textual compiled op mem⟩
  -- A run that passes over the Comment goes in step with the one that carries it out.
  have inStep : InStep before.length tags muted commented :=
    run_beside texts _ (Nat.lt_succ_self _) (fresh_beside silenced dish asks) harmless
  -- What is passed over may as well not be there.
  obtain ⟨stops, machines⟩ := run_kept dish budgeted unpaused
  obtain ⟨stops', machines'⟩ :=
    run_kept dish (budgeted_insert budgeted silenced.comment) (unpaused_insert unpaused silenced.disabled)
  rw [kept_insert rfl] at stops' machines'
  refine ⟨?_, ?_, ?_⟩
  · rw [inStep.stop]
    exact .of_renumbered stops stops'
  · calc
      commented.2.dish.get "string" = muted.2.dish.get "string" := inStep.machines.dish _ texts
      _ = plain.2.dish.get "string" := by rw [← machines'.dish, machines.dish]
  · calc
      commented.2.ledger.registers = muted.2.ledger.registers := inStep.machines.ledger.registers
      _ = plain.2.ledger.registers := by rw [← machines'.ledger.registers, machines.ledger.registers]

-- The recipe of a Fork that shouts each part of a text and turns it around, up to the place of a Comment.
def shouting : List Operation :=
  [⟨"Fork", [.text ",", .text ";", .bool false], "string", "string", false, false, none⟩,
    ⟨"To Upper case", Transform.toUpperCase.defaults, "string", "string", false, false,
      some Transform.toUpperCase⟩]

def turning : List Operation :=
  [⟨"Register", [.text "(.)", .bool true, .bool false], "string", "string", false, false, none⟩,
    ⟨"Reverse", Transform.reverse.defaults, "string", "string", false, false,
      some Transform.reverse⟩]

theorem comment_inert_shouting : Assembly.operations .standard
      [⟨.text "Fork", [.text ",", .text ";"], false, false⟩, ⟨.text "To Upper case", [], false, false⟩,
        ⟨.text "Register", [.text "(.)"], false, false⟩, ⟨.text "Reverse", [], false, false⟩] =
        .ok (shouting ++ turning) ∧
    (fresh (shouting ++ remarked :: turning) ⟨.text "ab,cd", "string"⟩ none).Harmless
      shouting.length ("string" :: (shouting ++ turning).map (·.input)) ∧
    ((fresh (shouting ++ turning) ⟨.text "ab,cd", "string"⟩ none).run 0).1.Agrees
      ((fresh (shouting ++ remarked :: turning) ⟨.text "ab,cd", "string"⟩ none).run 0).1 ∧
    output? (fresh (shouting ++ remarked :: turning) ⟨.text "ab,cd", "string"⟩ none) =
      some "BA;DC;" := by
  have compiled : Assembly.operations .standard
      [⟨.text "Fork", [.text ",", .text ";"], false, false⟩, ⟨.text "To Upper case", [], false, false⟩,
        ⟨.text "Register", [.text "(.)"], false, false⟩, ⟨.text "Reverse", [], false, false⟩] =
        .ok (shouting ++ turning) := rfl
  have texts : ∀ op ∈ shouting ++ remarked :: turning, OfText op := by decide +kernel
  have kinds : ∀ tag ∈ "string" :: (shouting ++ turning).map (·.input),
      tag = "string" ∨ tag = "byteArray" := by decide +kernel
  have harmless : (fresh (shouting ++ remarked :: turning) ⟨.text "ab,cd", "string"⟩ none).Harmless
      shouting.length _ := harmless_of_text kinds texts rfl _
  have inert := comment_inert compiled (by decide +kernel) (by decide +kernel) rfl rfl rfl harmless
  exact ⟨compiled, harmless, inert.1, by decide +kernel⟩

/-- A Comment in front of an operation that takes bytes is not inert: bytes that are no text do not
survive it. -/
theorem comment_not_inert : ∃ ops ops',
    Assembly.operations .standard [⟨.text "To Hex", [], false, false⟩] = .ok ops ∧
      Assembly.operations .standard
        [⟨.text "Comment", [.text "note"], false, false⟩, ⟨.text "To Hex", [], false, false⟩] = .ok ops' ∧
      output? (fresh ops ⟨.bytes [0xff], "byteArray"⟩ none) = some "ff" ∧
      output? (fresh ops' ⟨.bytes [0xff], "byteArray"⟩ none) = some "ef bf bd" :=
  ⟨_, _, rfl, rfl, by decide +kernel, by decide +kernel⟩

end Machine

end Kitchen.Run

import Kitchen.Proofs.Run.Elsewhere
import Kitchen.Proofs.Run.Places
import Kitchen.Proofs.Run.Typing
import Kitchen.Proofs.Value.Fields

/-!
The tranches of a Fork are independent. Though they share one list of operations and one ledger, each
goes as if it ran by itself, and the Fork is the sum of these runs.
-/
namespace Kitchen

open Text (Glyph)

-- A typed dish as text.
def Dish.text (d : Dish) : List Glyph :=
  match d.get "string" with
  | .ok (v, _) => v.glyphs
  | .error _ => []

theorem Dish.Typed.text {d : Dish} (typed : d.Typed) :
    ∃ d', d.get "string" = .ok (.ofGlyphs d.text, d') := by
  obtain ⟨gs, d', get⟩ := typed.get_text
  have same : d.text = gs := by
    unfold Dish.text
    rw [get]
    exact Value.glyphs_ofGlyphs gs
  rw [same]
  exact ⟨d', get⟩

namespace Run

-- How far a run has come: where it stopped, or after the operation that failed.
def Stop.progress : Stop → Int
  | .at p => p
  | .broken b => b.place + 1
  | _ => 0

-- A Fork goes on after a run that ends, unless it is broken and failures are not ignored.
def Stop.Passable (ignoring : Bool) (stop : Stop) : Prop :=
  stop ≠ .unfinished ∧ (ignoring = true ∨ ∀ b, stop ≠ .broken b)

namespace Machine

-- The pieces of a text: its glyphs if the separator is empty, else the parts between separators.
def pieces (separator gs : List Glyph) : List (List Glyph) :=
  if gs = [] then []
  else if separator = [] then gs.map fun g => [g]
  else splitText separator gs.length gs

def ahead (m : Machine) (i : Int) : List Operation :=
  (m.ops.drop (follows m.ops.length i)).takeWhile fun op => !op.does .merge

def alone (m : Machine) (i : Int) (piece : List Glyph) : Stop × Machine :=
  Machine.run 0 ⟨m.ahead i, ⟨.ofGlyphs piece, "string"⟩, (m.moveTo i).frame.inner, .opened none, none⟩

variable {i : Int} {op : Operation} {m : Machine} {separator : List Glyph} {d : Dish}

theorem tranches_pieces (separator gs : List Glyph) :
    tranches (.ofGlyphs separator) (.ofGlyphs gs) = .ok ((pieces separator gs).map .ofGlyphs) := by
  unfold tranches pieces
  -- Nothing is cut into no pieces, and by an empty separator into glyphs.
  by_cases empty : gs = []
  · subst empty
    rfl
  · have full : (Value.ofGlyphs gs).truthy = true := Value.truthy_ofGlyphs.mpr empty
    rw [if_neg empty, full, if_neg (by decide)]
    have empty_iff : (Value.ofGlyphs separator).same (.text "") ↔ separator = [] := by
      rw [Value.same_of_isText (Value.isText_ofGlyphs separator)]
      constructor
      · intro same
        exact Value.ofGlyphs_inj same.symm
      · rintro rfl
        rfl
    by_cases none : separator = []
    · rw [if_pos none, if_pos (empty_iff.mpr none), itemsOf_ofGlyphs, List.map_map]
      rfl
    · rw [if_neg none, if_neg (mt empty_iff.mp none), splitValue_ofGlyphs]
      simp only [splitGlyphs, Value.glyphs?_ofGlyphs]

/-- What a Fork is to serve on a text. -/
theorem split_text {delimiter ignoring : Value} {more : List Value} {gs : List Glyph}
    (args : op.args = .ofGlyphs separator :: delimiter :: ignoring :: more)
    (get : m.dish.get op.input = .ok (.ofGlyphs gs, m.dish)) :
    m.split op = (.ok ⟨op, m.forkBody, m.frame.inner, delimiter.glyphs, ignoring.truthy,
      (pieces separator gs).map .ofGlyphs⟩, m.dish) := by
  unfold split
  simp only [args, get, tranches_pieces]

namespace Split

variable {s : Split} {number : Nat} {p : List Glyph} {h : Harvest} {halt : Halt}

-- A Fork that takes and gives text, of sound operations.
structure Plain (s : Split) : Prop where
  input : s.op.input = "string"
  output : s.op.output = "string"
  sound : ∀ op ∈ s.body, op.Sound

-- The machine that runs a piece by itself.
def single (s : Split) (p : List Glyph) : Machine :=
  ⟨s.body, ⟨.ofGlyphs p, "string"⟩, s.frame, .opened none, none⟩

structure Fit (s : Split) (h : Harvest) : Prop where
  akin : OpsAkin s.body h.ops
  free : h.ledger.limit = none

/-- A tranche goes as if its piece were run by itself. -/
theorem Fit.single (fit : s.Fit h) (number : Nat) (p : List Glyph) :
    (Machine.run 0 (s.next number ⟨.ofGlyphs p, "string"⟩ h)).1 = (Machine.run 0 (s.single p)).1 ∧
      (Machine.run 0 (s.next number ⟨.ofGlyphs p, "string"⟩ h)).2.dish =
        (Machine.run 0 (s.single p)).2.dish ∧
      (Machine.run 0 (s.next number ⟨.ofGlyphs p, "string"⟩ h)).2.ledger.limit = none := by
  have noted : Ledger.Echoes (h.ledger.note (.tranche number s.parts.length)) 0 (s.single p).ledger
      (h.ledger.note (.tranche number s.parts.length)) :=
    ⟨rfl, fit.free, (List.append_nil _).symm, (List.append_nil _).symm⟩
  have alike := Alike.intro (m := s.single p) noted
  -- The tranche is the piece's own machine, elsewhere: its operations are restored from what was left.
  have moved : (s.single p).elsewhere ((s.single p).frame.offset + 0)
      (h.ledger.note (.tranche number s.parts.length)) = s.next number ⟨.ofGlyphs p, "string"⟩ h := by
    unfold next machine
    rw [restore_akin fit.akin, Int.add_zero]
    rfl
  rw [moved] at alike
  obtain ⟨stops, machines⟩ := oblivious_run _ _ _ _ alike
  generalize (Machine.run 0 (s.next number ⟨.ofGlyphs p, "string"⟩ h)).2 = k at machines
  generalize (Machine.run 0 (s.single p)).2 = k' at machines
  cases machines with
  | intro echoes => exact ⟨stops, rfl, echoes.free'⟩

theorem Plain.typed (plain : s.Plain) (p : List Glyph) : (Machine.run 0 (s.single p)).2.dish.Typed := by
  have sound : (s.single p).Sound := ⟨Dish.ofGlyphs_typed p, plain.sound⟩
  exact ((soundness.run trivial).2 sound).dish

/-- By itself a piece never runs out of the list or over a limit. -/
theorem single_stops (s : Split) (p : List Glyph)
    (finished : (Machine.run 0 (s.single p)).1 ≠ .unfinished) :
    (∃ q, (Machine.run 0 (s.single p)).1 = .at q) ∨
      ∃ b, (Machine.run 0 (s.single p)).1 = .broken b := by
  have lies := regular_run.lies (s.single p)
  have free : ∀ l, (Machine.run 0 (s.single p)).1 ≠ .overLimit l := by
    intro l passed
    cases (limited.run trivial).2 l passed
  -- It begins at its front without a limit, so two of the ways to stop are none.
  generalize (Machine.run 0 (s.single p)).1 = stop at lies free finished
  cases stop with
  | «at» q => exact .inl ⟨q, rfl⟩
  | broken b => exact .inr ⟨b, rfl⟩
  | overLimit l => exact absurd rfl (free l)
  | outOfRange => exact absurd lies id
  | unfinished => exact absurd rfl finished

theorem reach_passable (s : Split) (p : List Glyph)
    (passable : (Machine.run 0 (s.single p)).1.Passable s.ignoring) :
    s.reach (Machine.run 0 (s.single p)).1 = .ok (Machine.run 0 (s.single p)).1.progress := by
  obtain ⟨finished, ignored⟩ := passable
  rcases single_stops s p finished with ⟨q, stop⟩ | ⟨b, stop⟩
  · rw [stop]
    rfl
  · rcases ignored with ignoring | unbroken
    · rw [stop, reach_broken, if_pos ignoring]
      rfl
    · exact absurd stop (unbroken b)

theorem Plain.serve_on (plain : s.Plain) (fit : s.Fit h) (number : Nat)
    (passable : (Machine.run 0 (s.single p)).1.Passable s.ignoring) :
    ∃ h', s.Serve (Machine.run 0) number (.ofGlyphs p) h none h' ∧ s.Fit h' ∧
      h'.output = h.output ++ (Machine.run 0 (s.single p)).2.dish.text ++ s.delimiter ∧
      h'.progress = (Machine.run 0 (s.single p)).1.progress := by
  obtain ⟨stops, dishes, free⟩ := fit.single number p
  obtain ⟨d', get⟩ := (plain.typed p).text
  have made : Dish.make (.ofGlyphs p) s.op.input = .ok ⟨.ofGlyphs p, "string"⟩ := by
    rw [plain.input]
    exact Dish.make_isText (Value.isText_ofGlyphs p)
  have reach := reach_passable s p passable
  -- The tranche stops as the piece would alone, and its dish is the same.
  obtain ⟨stop, k, ran⟩ :
      ∃ stop k, Machine.run 0 (s.next number ⟨.ofGlyphs p, "string"⟩ h) = (stop, k) := ⟨_, _, rfl⟩
  rw [ran] at stops dishes free
  rw [← stops] at reach
  have get' : k.dish.get s.op.output = .ok (.ofGlyphs (Machine.run 0 (s.single p)).2.dish.text, d') := by
    rw [plain.output, dishes]
    exact get
  have serve : s.Serve (Machine.run 0) number (.ofGlyphs p) h none _ := .brought made ran reach get'
  have keeps : KeepsShape (Machine.run 0) := regular_run.shape
  refine ⟨_, serve, ⟨serve.akin keeps fit.akin, ?_⟩, ?_, congrArg Stop.progress stops⟩
  · exact (remark_limit number _ _).trans free
  · exact congrArg (h.output ++ · ++ s.delimiter) (outputText_ofGlyphs _)

theorem Plain.serve_halted (plain : s.Plain) (fit : s.Fit h) (number : Nat)
    (halts : s.reach (Machine.run 0 (s.single p)).1 = .error halt) :
    ∃ h', s.Serve (Machine.run 0) number (.ofGlyphs p) h (some halt) h' := by
  obtain ⟨stops, -, -⟩ := fit.single number p
  have made : Dish.make (.ofGlyphs p) s.op.input = .ok ⟨.ofGlyphs p, "string"⟩ := by
    rw [plain.input]
    exact Dish.make_isText (Value.isText_ofGlyphs p)
  obtain ⟨stop, k, ran⟩ :
      ∃ stop k, Machine.run 0 (s.next number ⟨.ofGlyphs p, "string"⟩ h) = (stop, k) := ⟨_, _, rfl⟩
  rw [ran] at stops
  rw [← stops] at halts
  exact ⟨_, .stopped made ran halts⟩

/-- Tranches that the Fork goes on after bring the texts that they end with, in order. -/
theorem Plain.serveAll_on (plain : s.Plain) (fit : s.Fit h) (number : Nat) (ps : List (List Glyph))
    (passable : ∀ p ∈ ps, (Machine.run 0 (s.single p)).1.Passable s.ignoring) :
    ∃ h', s.serveAll (Machine.run 0) number (ps.map .ofGlyphs) h = (none, h') ∧ s.Fit h' ∧
      h'.output = h.output ++
        (ps.flatMap fun p => (Machine.run 0 (s.single p)).2.dish.text ++ s.delimiter) ∧
      h'.progress =
        (ps.getLast?.map fun p => (Machine.run 0 (s.single p)).1.progress).getD h.progress := by
  induction ps generalizing number h with
  | nil => exact ⟨h, rfl, fit, (List.append_nil _).symm, rfl⟩
  | cons p ps ih =>
    obtain ⟨h₁, serve, fit₁, output, progress⟩ :=
      plain.serve_on fit number (passable p List.mem_cons_self)
    obtain ⟨h₂, served, fit₂, output₂, progress₂⟩ :=
      ih fit₁ (number + 1) fun q mem => passable q (List.mem_cons_of_mem p mem)
    refine ⟨h₂, ?_, fit₂, ?_, ?_⟩
    · rw [List.map_cons, serveAll, serve.eq]
      exact served
    · rw [output₂, output, List.flatMap_cons]
      simp only [List.append_assoc]
    · -- The progress is that of the last piece, which is this one if none comes after it.
      rw [progress₂, progress]
      cases ps with
      | nil => rfl
      | cons q qs => rw [List.getLast?_cons_cons]; rfl

/-- The first tranche that the Fork does not go on after halts it. -/
theorem Plain.serveAll_halted (plain : s.Plain) (fit : s.Fit h) (before after : List (List Glyph))
    (passable : ∀ p ∈ before, (Machine.run 0 (s.single p)).1.Passable s.ignoring)
    (halts : s.reach (Machine.run 0 (s.single p)).1 = .error halt) :
    ∃ h', s.serveAll (Machine.run 0) 1 ((before ++ p :: after).map .ofGlyphs) h = (some halt, h') := by
  obtain ⟨h₁, served, fit₁, -, -⟩ := plain.serveAll_on fit 1 before passable
  obtain ⟨h₂, serve⟩ := plain.serve_halted fit₁ (1 + (before.map Value.ofGlyphs).length) halts
  refine ⟨h₂, ?_⟩
  rw [List.map_append, serveAll_append, served, List.map_cons]
  dsimp only
  rw [serveAll, serve.eq]

end Split

variable {start : Int} {fork : Split} {v : Value} {ps : List (List Glyph)}

/-- A Fork between texts goes on after its tranches if it does so after each piece by itself. -/
theorem Ready.joined (ready : m.Ready start i op) (primitive : op.primitive? = some .fork)
    (free : m.ledger.limit = none) (get : m.dish.get op.input = .ok (v, d))
    (cut : ((m.enter i op).forking i d).split op = (.ok fork, d)) (output : op.output = "string")
    (plain : fork.Plain) (parts : fork.parts = ps.map .ofGlyphs)
    (passable : ∀ p ∈ ps, (Machine.run 0 (fork.single p)).1.Passable fork.ignoring) :
    ∃ k far, m.round (Machine.run 0) start i = .onward (i + far + 1) k ∧
      far = (ps.getLast?.map fun p => (Machine.run 0 (fork.single p)).1.progress).getD 0 ∧
      k.dish = ⟨.ofGlyphs (ps.flatMap fun p =>
        (Machine.run 0 (fork.single p)).2.dish.text ++ fork.delimiter), "string"⟩ ∧
      k.frame = { m.frame with cursor := i + far } ∧ k.ops = m.ops := by
  have fit : fork.Fit (fork.opening (m.enter i op).ledger) := ⟨.refl _, free⟩
  obtain ⟨h, served, -, brought, progress⟩ := plain.serveAll_on fit 1 ps passable
  rw [← parts] at served
  have set : Dish.set (.ofGlyphs h.output) op.output = .ok ⟨.ofGlyphs h.output, "string"⟩ := by
    rw [output]
    exact Dish.set_isText (Value.isText_ofGlyphs _)
  have serves : (m.enter i op).Serves (Machine.run 0) i op _ _ := .joined get cut served set
  have rounds : m.Rounds (Machine.run 0) start i _ := .served ready primitive serves
  have joined : h.output = ps.flatMap fun p =>
      (Machine.run 0 (fork.single p)).2.dish.text ++ fork.delimiter := by
    rw [brought]
    exact List.nil_append _
  rw [rounds.eq, ← joined]
  exact ⟨_, h.progress, rfl, progress, rfl, rfl, rfl⟩

/-- A Fork between texts halts at the first piece that it does not go on after. -/
theorem Ready.halted {before after : List (List Glyph)} {p : List Glyph} {halt : Halt}
    (ready : m.Ready start i op) (primitive : op.primitive? = some .fork)
    (free : m.ledger.limit = none) (get : m.dish.get op.input = .ok (v, d))
    (cut : ((m.enter i op).forking i d).split op = (.ok fork, d)) (plain : fork.Plain)
    (parts : fork.parts = (before ++ p :: after).map .ofGlyphs)
    (passable : ∀ p ∈ before, (Machine.run 0 (fork.single p)).1.Passable fork.ignoring)
    (halts : fork.reach (Machine.run 0 (fork.single p)).1 = .error halt) :
    ∃ k : Machine, m.round (Machine.run 0) start i = k.conclude i op halt ∧ k.dish = d ∧
      k.ops = m.ops := by
  have fit : fork.Fit (fork.opening (m.enter i op).ledger) := ⟨.refl _, free⟩
  obtain ⟨h, served⟩ := plain.serveAll_halted fit before after passable halts
  rw [← parts] at served
  have serves : (m.enter i op).Serves (Machine.run 0) i op _ _ := .halted get cut served
  have rounds : m.Rounds (Machine.run 0) start i _ := .halted ready primitive serves
  exact ⟨_, rounds.eq, rfl, rfl⟩

/-- A Fork is the sum of independent runs. Where a Fork is carried out on a text, in a run without a limit
of a compiled recipe, let each piece of the text be run by itself on the operations up to the next
Merge, as they are then. If the Fork goes on after all of these runs, its dish is what they end with,
each followed by the delimiter, and it stands where the last one stopped. Otherwise it ends as the
first of them that it does not go on after, and its dish was only turned to text. -/
theorem fork_sums_runs {c : Catalog} {es : List Entry} {ops : List Operation} {dish d : Dish}
    {start start' i : Int} {n m : Machine} {count : Nat} {op : Operation} {separator t : List Glyph}
    {delimiter ignoring : Value} {more : List Value} (faithful : c.Faithful)
    (compiled : Assembly.operations c es = .ok ops) (typed : dish.Typed)
    (arises : Arises start (fresh ops dish none) start' n) (passes : Passes start' n count i m)
    (ready : m.Ready start' i op) (primitive : op.primitive? = some .fork)
    (args : op.args = .ofGlyphs separator :: delimiter :: ignoring :: more)
    (get : m.dish.get "string" = .ok (.ofGlyphs t, d)) :
    let runs := (pieces separator t).map (m.alone i)
    let far := (runs.getLast?.map fun r => r.1.progress).getD 0
    (∀ r ∈ runs, ∃ d', r.2.dish.get "string" = .ok (.ofGlyphs r.2.dish.text, d')) ∧
    ((∀ r ∈ runs, r.1.Passable ignoring.truthy) →
      ∃ k, m.round (Machine.run 0) start' i = .onward (i + far + 1) k ∧
        k.dish = ⟨.ofGlyphs (runs.flatMap fun r => r.2.dish.text ++ delimiter.glyphs), "string"⟩ ∧
        k.frame = { m.frame with cursor := i + far } ∧ k.ops = m.ops) ∧
    (∀ before b k₁ after, runs = before ++ (.broken b, k₁) :: after →
      (∀ r ∈ before, r.1.Passable ignoring.truthy) → ignoring.truthy = false →
      ∃ k, m.round (Machine.run 0) start' i = .ended (.broken { b with place := i }) k ∧
        k.dish = d ∧ k.ops = m.ops) ∧
    (∀ before k₁ after, runs = before ++ (.unfinished, k₁) :: after →
      (∀ r ∈ before, r.1.Passable ignoring.truthy) →
      ∃ k, m.round (Machine.run 0) start' i = .ended .unfinished k) := by
  intro runs far
  have begun : (fresh ops dish none).Sound := ⟨typed, Assembly.operations_sound faithful compiled⟩
  have sound : m.Sound := (soundness.passes trivial passes).2 (arises.sound begun)
  have free : m.ledger.limit = none := (arises.grows.trans (growth.passes trivial passes)).limit
  obtain ⟨input, output⟩ := (sound.ops op (opAt_mem ready.here)).primitive _ primitive
  rw [← input] at get
  have cut := split_text (m := (m.enter i op).forking i d) args (Dish.get_again get)
  have plain : Split.Plain ⟨op, ((m.enter i op).forking i d).forkBody,
      ((m.enter i op).forking i d).frame.inner, delimiter.glyphs, ignoring.truthy,
      (pieces separator t).map .ofGlyphs⟩ := by
    refine ⟨input, output, ?_⟩
    intro op' mem
    exact sound.ops op' (((m.enter i op).forking i d).forkBody_subset mem)
  -- The runs of the pieces are those of the Fork's tranches, which are taken from the same list.
  refine ⟨?_, ?_, ?_, ?_⟩
  · intro r mem
    obtain ⟨p, -, rfl⟩ := List.mem_map.mp mem
    exact (plain.typed p).text
  · intro passable
    obtain ⟨k, far', round, farthest, brought, frame, ops'⟩ := ready.joined primitive free get cut
      output plain rfl fun p mem => passable _ (List.mem_map_of_mem mem)
    have same : far' = far := by
      rw [farthest]
      simp only [far, runs, List.getLast?_map, Option.map_map]
      rfl
    rw [← same]
    refine ⟨k, round, brought.trans ?_, frame, ops'⟩
    simp only [runs, List.flatMap_map]
    rfl
  · intro before b k₁ after split passable unignored
    -- The run that is broken is that of the piece at its place, and the Fork stops at it.
    have off : ¬ignoring.truthy = true := by
      rw [unignored]
      exact Bool.false_ne_true
    obtain ⟨ps, qs, pieces_split, rfl, rest⟩ := List.map_eq_append_iff.mp split
    obtain ⟨p, ps', rfl, broken, -⟩ := List.map_eq_cons_iff.mp rest
    have halts : ∀ fork : Split, fork.ignoring = ignoring.truthy →
        fork.reach (m.alone i p).1 = .error (.broken b) := by
      intro fork same
      rw [broken, Split.reach_broken, same]
      exact if_neg off
    obtain ⟨k, round, dish', ops'⟩ := ready.halted primitive free get cut plain
      (congrArg (List.map Value.ofGlyphs) pieces_split)
      (fun q mem => passable _ (List.mem_map_of_mem mem)) (halts _ rfl)
    exact ⟨k, round, dish', ops'⟩
  · intro before k₁ after split passable
    obtain ⟨ps, qs, pieces_split, rfl, rest⟩ := List.map_eq_append_iff.mp split
    obtain ⟨p, ps', rfl, unfinished, -⟩ := List.map_eq_cons_iff.mp rest
    have halts : ∀ fork : Split, fork.reach (m.alone i p).1 = .error .unfinished := by
      intro fork
      rw [unfinished]
      rfl
    obtain ⟨k, round, -, -⟩ := ready.halted primitive free get cut plain
      (congrArg (List.map Value.ofGlyphs) pieces_split)
      (fun q mem => passable _ (List.mem_map_of_mem mem)) (halts _)
    exact ⟨k, round⟩

def mirroring : List Operation :=
  [⟨"Fork", [.text ",", .text ";", .bool false], "string", "string", false, false, none⟩,
    ⟨"Reverse", [.text "Character"], "string", "string", false, false, some .reverse⟩]

def mirror : Machine :=
  (fresh mirroring ⟨.text "ab,cd", "string"⟩ none).note (.started 2 0)

theorem fork_sums_runs_mirror : Catalog.standard.Faithful ∧
    Assembly.operations .standard [⟨.text "Fork", [.text ",", .text ";"], false, false⟩,
      ⟨.text "Reverse", [], false, false⟩] = .ok mirroring ∧
    (⟨.text "ab,cd", "string"⟩ : Dish).Typed ∧
    ∃ k, mirror.round (Machine.run 0) 0 0 = .onward 2 k ∧
      k.dish = ⟨.text "ba;dc;", "string"⟩ := by
  let comma := Glyph.ofText ","
  have compiled : Assembly.operations .standard [⟨.text "Fork", [.text ",", .text ";"], false, false⟩,
      ⟨.text "Reverse", [], false, false⟩] = .ok mirroring := rfl
  have typed : (⟨.text "ab,cd", "string"⟩ : Dish).Typed := Dish.text_typed _
  have ready : mirror.Ready 0 0 _ := ⟨rfl, rfl, fun goes => goes.2 rfl, rfl⟩
  have args : mirroring.head?.map (·.args) = some [.ofGlyphs comma, .text ";", .bool false] := rfl
  obtain ⟨-, sums, -⟩ := fork_sums_runs (m := mirror) (t := Glyph.ofText "ab,cd")
    Catalog.standard_faithful compiled typed .outermost .begins ready rfl (Option.some.inj args) rfl
  have stops : ∀ r ∈ (pieces comma (Glyph.ofText "ab,cd")).map (mirror.alone 0), r.1 = .at 1 := by
    decide +kernel
  have texts : (((pieces comma (Glyph.ofText "ab,cd")).map (mirror.alone 0)).flatMap fun r =>
      r.2.dish.text ++ Glyph.ofText ";") = Glyph.ofText "ba;dc;" := by decide +kernel
  have far : ((((pieces comma (Glyph.ofText "ab,cd")).map (mirror.alone 0)).getLast?.map fun r =>
      r.1.progress).getD 0) = 1 := by decide +kernel
  obtain ⟨k, round, joined, -⟩ := sums fun r mem => by
    rw [stops r mem]
    exact ⟨Stop.noConfusion, .inr fun _ => Stop.noConfusion⟩
  rw [far] at round
  refine ⟨Catalog.standard_faithful, compiled, typed, k, round, joined.trans ?_⟩
  exact congrArg (fun gs => (⟨.ofGlyphs gs, "string"⟩ : Dish)) texts

end Machine

end Run

end Kitchen

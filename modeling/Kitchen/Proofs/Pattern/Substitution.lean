import Mathlib.Data.List.TakeWhile
import Kitchen.Pattern.Match
import Kitchen.Proofs.Value.Texts

namespace Kitchen.Pattern

open Text (Glyph)

variable {p : Pattern} {s b e : Spot} {nonempty : Bool} {g : Glyph} {rest xs : List Glyph} {fuel : Nat}

-- The spot behind characters that stand at a spot.
def Spot.past (s : Spot) (xs rest : List Glyph) : Spot :=
  ⟨s.place + xs.length, xs.reverse ++ s.before, rest, s.held⟩

@[simp]
theorem Spot.past_nil (s : Spot) : s.past [] s.after = s := rfl

@[simp]
theorem Spot.past_after (s : Spot) (xs rest : List Glyph) : (s.past xs rest).after = rest := rfl

@[simp]
theorem Spot.past_held (s : Spot) (xs rest : List Glyph) : (s.past xs rest).held = s.held := rfl

@[simp]
theorem Spot.past_place (s : Spot) (xs rest : List Glyph) : (s.past xs rest).place = s.place + xs.length :=
  rfl

theorem Spot.past_past (s : Spot) (xs ys more rest : List Glyph) :
    (s.past xs more).past ys rest = s.past (xs ++ ys) rest := by
  simp [Spot.past, Nat.add_assoc]

theorem Spot.upTo_self (s : Spot) : s.upTo s = [] := by
  simp [Spot.upTo]

/-- What stands in between depends on the place of the later spot alone. -/
theorem Spot.upTo_past (after : s.after = xs ++ rest) (place : e.place = s.place + xs.length) :
    s.upTo e = xs := by
  have far : e.place - s.place = xs.length := by omega
  rw [Spot.upTo, after, far]
  exact List.take_left

theorem findFrom_here (hit : p.matchAt nonempty s = some e) : p.findFrom nonempty s = some (s, e) := by
  unfold findFrom
  cases s.after with
  | nil => simp [findFrom.go, hit]
  | cons g rest => simp [findFrom.go, hit]

theorem findFrom_end (ended : s.after = []) (miss : p.matchAt nonempty s = none) :
    p.findFrom nonempty s = none := by
  unfold findFrom
  simp [ended, findFrom.go, miss]

/-- Where nothing matches, the search goes on behind the next character. -/
theorem findFrom_onward (after : s.after = g :: rest) (miss : p.matchAt nonempty s = none) :
    p.findFrom nonempty s = p.findFrom false (s.past [g] rest) := by
  unfold findFrom
  simp only [after, findFrom.go, miss]
  rfl

/-- A match that is found begins behind some of the characters that are left. -/
theorem findFrom_past (found : p.findFrom nonempty s = some (b, e)) :
    ∃ xs, s.after = xs ++ b.after ∧ b = s.past xs b.after := by
  have here : s = s.past [] s.after := rfl
  generalize left : s.after = cs at here
  induction cs generalizing s nonempty with
  | nil =>
    cases hit : p.matchAt nonempty s with
    | none => simp [findFrom_end left hit] at found
    | some e' =>
      obtain ⟨rfl, -⟩ : s = b ∧ e' = e := by simpa [findFrom_here hit] using found
      exact ⟨[], by simp [left], by rw [left]; exact here⟩
  | cons g rest ih =>
    cases hit : p.matchAt nonempty s with
    | some e' =>
      obtain ⟨rfl, -⟩ : s = b ∧ e' = e := by simpa [findFrom_here hit] using found
      exact ⟨[], by simp [left], by rw [left]; exact here⟩
    | none =>
      rw [findFrom_onward left hit] at found
      obtain ⟨xs, after, place⟩ := ih found rfl rfl
      refine ⟨g :: xs, by rw [after, List.cons_append], ?_⟩
      rw [place, Spot.past_past]
      rfl

-- What is known of a match: the characters that it takes, and what the groups hold.
structure Found where
  whole : List Glyph
  held : List (Option (List Glyph))
  deriving DecidableEq, Repr

-- A text in which each match has given way to what is made of it. Matches follow each other as in `pieces`.
def substitute (p : Pattern) (f : Found → List Glyph) (text : List Glyph) : List Glyph :=
  go (2 * text.length + 2) false (.start text p.groups)
where
  go : Nat → Bool → Spot → List Glyph
  | 0, _, s => s.after
  | fuel + 1, nonempty, s =>
    match p.findFrom nonempty s with
    | none => s.after
    | some (b, e) =>
      s.upTo b ++ f ⟨b.upTo e, e.held⟩ ++ go fuel (e.place == b.place) e.cleared

-- What pieces amount to when a text is put in for each match.
def Piece.filled (r : List Glyph) : Piece → List Glyph
  | .kept text => text
  | .found => r

/-- A stretch between matches is filled with itself. -/
theorem filled_keep (r xs : List Glyph) (rest : List Piece) :
    (pieces.keep xs rest).flatMap (Piece.filled r) = xs ++ rest.flatMap (Piece.filled r) := by
  cases xs <;> simp [pieces.keep, Piece.filled]

/-- Where the same is made of every match, the text is cut into its pieces and they are filled. -/
theorem substitute_pieces (p : Pattern) (r text : List Glyph) :
    p.substitute (fun _ => r) text = (p.pieces none text).flatMap (Piece.filled r) := by
  unfold substitute pieces
  generalize 2 * text.length + 2 = fuel
  generalize Spot.start text p.groups = s
  generalize false = nonempty
  induction fuel generalizing s nonempty with
  | zero => simp [substitute.go, pieces.go, filled_keep]
  | succ fuel ih =>
    cases found : p.findFrom nonempty s with
    | none => simp [substitute.go, pieces.go, found, filled_keep]
    | some match' =>
      obtain ⟨b, e⟩ := match'
      simp [substitute.go, pieces.go, found, filled_keep, ih, Piece.filled]

section Replacing

variable {f : Found → List Glyph}

theorem substitute_end (ended : s.after = []) (miss : p.matchAt nonempty s = none) :
    substitute.go p f fuel nonempty s = [] := by
  cases fuel with
  | zero => simp [substitute.go, ended]
  | succ fuel => simp [substitute.go, findFrom_end ended miss, ended]

/-- A character at which no match begins stays as it is. -/
theorem substitute_onward (after : s.after = g :: rest) (miss : p.matchAt nonempty s = none) :
    substitute.go p f (fuel + 1) nonempty s =
      g :: substitute.go p f (fuel + 1) false (s.past [g] rest) := by
  simp only [substitute.go, findFrom_onward after miss]
  cases found : p.findFrom false (s.past [g] rest) with
  | none => simp [after]
  | some match' =>
    obtain ⟨b, e⟩ := match'
    obtain ⟨xs, behind, place⟩ := findFrom_past found
    -- the search began one character further on, so the stretch before the match is longer by it
    have near : (s.past [g] rest).upTo b = xs := by
      apply Spot.upTo_past behind
      rw [place]
      simp
    have whole : s.after = (g :: xs) ++ b.after := by
      rw [after, List.cons_append]
      exact congrArg _ behind
    have far : s.upTo b = g :: xs := by
      apply Spot.upTo_past whole
      rw [place]
      simp
      omega
    simp [near, far]

/-- A match gives way to what is made of it. -/
theorem substitute_here (hit : p.matchAt nonempty s = some e) :
    substitute.go p f (fuel + 1) nonempty s =
      f ⟨s.upTo e, e.held⟩ ++ substitute.go p f fuel (e.place == s.place) e.cleared := by
  simp [substitute.go, findFrom_here hit, Spot.upTo_self]

end Replacing

variable {t : Test} {high : Option Nat} {done : List Spot} {follow : Follow}

/-- Where case counts, a literal accepts its own character. -/
theorem Test.literal_accepts (g h : Glyph) :
    (Test.literal h.code false .exact).accepts g = decide (g = h) := by
  have same : g = h ↔ g.code = h.code := ⟨congrArg _, Glyph.code_inj⟩
  rw [Bool.eq_iff_iff, decide_eq_true_iff, same]
  simp [Test.accepts, Fold.matchesOne, Fold.lower]

theorem run_one (after : s.after = g :: rest) (accepts : t.accepts g) :
    (Node.one t).run s follow = follow (s.past [g] rest) := by
  simp [Node.run, after, accepts, Spot.past]

theorem run_one_none (bars : ∀ g rest, s.after = g :: rest → t.accepts g = false) :
    (Node.one t).run s follow = none := by
  cases after : s.after with
  | nil => simp [Node.run, after]
  | cons g rest => simp [Node.run, after, bars g rest after]

def laps (s : Spot) : List Glyph → List Glyph → List Spot
  | [], _ => [s]
  | x :: xs, rest => laps (s.past [x] (xs ++ rest)) xs rest ++ [s]

theorem laps_head (after : s.after = xs ++ rest) : ∃ less, laps s xs rest = s.past xs rest :: less := by
  induction xs generalizing s with
  | nil => exact ⟨[], by rw [laps, ← Spot.past_nil s, after]; rfl⟩
  | cons x xs ih =>
    have onward : (s.past [x] (xs ++ rest)).after = xs ++ rest := rfl
    obtain ⟨less, eq⟩ := ih onward
    refine ⟨less ++ [s], ?_⟩
    rw [laps, eq, Spot.past_past]
    rfl

theorem mem_laps (mem : e ∈ laps s xs rest) (after : s.after = xs ++ rest) :
    ∃ ys zs, xs = ys ++ zs ∧ e = s.past ys (zs ++ rest) := by
  induction xs generalizing s with
  | nil =>
    obtain rfl : e = s := by simpa [laps] using mem
    exact ⟨[], [], rfl, by rw [← after]; rfl⟩
  | cons x xs ih =>
    rcases List.mem_append.mp mem with mem | mem
    · obtain ⟨ys, zs, rfl, rfl⟩ := ih mem rfl
      refine ⟨x :: ys, zs, rfl, ?_⟩
      rw [Spot.past_past]
      rfl
    · obtain rfl := List.mem_singleton.mp mem
      exact ⟨[], x :: xs, rfl, by rw [← after]; rfl⟩

-- Whether a run of accepted characters ends here: none may follow, or the next one is refused.
def Ends (t : Test) (high : Option Nat) (xs rest : List Glyph) : Prop :=
  high = some xs.length ∨
    (∀ n, high = some n → xs.length ≤ n) ∧ ∀ g more, rest = g :: more → t.accepts g = false

theorem stretch_run (accepted : ∀ g ∈ xs, t.accepts g) (ends : Ends t high xs rest) :
    stretch t high s done (xs ++ rest) = laps s xs rest ++ done := by
  induction xs generalizing s done high with
  | nil =>
    by_cases full : high = some 0
    · subst full
      rw [List.nil_append, stretch]
      rfl
    · obtain ⟨-, refused⟩ := ends.resolve_left full
      cases rest with
      | nil =>
        rw [List.nil_append, stretch]
        · rfl
        · exact full
      | cons g more =>
        rw [List.nil_append, stretch]
        · simp [refused g more rfl, laps]
        · exact full
  | cons x xs ih =>
    have room : high ≠ some 0 := by
      rintro rfl
      rcases ends with full | ⟨within, -⟩
      · simp at full
      · exact absurd (within 0 rfl) (by simp)
    have onward : Ends t (high.map (· - 1)) xs rest := by
      rcases ends with rfl | ⟨within, refused⟩
      · exact .inl (by simp)
      · refine .inr ⟨fun n eq => ?_, refused⟩
        obtain ⟨m, rfl, rfl⟩ := Option.map_eq_some_iff.mp eq
        have := within m rfl
        simp only [List.length_cons] at this
        omega
    have first : t.accepts x := accepted x List.mem_cons_self
    have later : stretch t (high.map (· - 1)) (s.past [x] (xs ++ rest)) (s :: done) (xs ++ rest) =
        laps (s.past [x] (xs ++ rest)) xs rest ++ s :: done :=
      ih (fun g mem => accepted g (List.mem_cons_of_mem x mem)) onward
    rw [List.cons_append, stretch]
    · rw [if_pos first, laps, List.append_assoc]
      exact later
    · exact room

variable {low : Nat}

/-- If the whole run leads on, a greedy repetition takes it. -/
theorem run_greedy (after : s.after = xs ++ rest) (accepted : ∀ g ∈ xs, t.accepts g)
    (ends : Ends t high xs rest) (enough : low ≤ xs.length)
    (leads : follow (s.past xs rest) = some e) :
    (Node.repeated .greedy low high (.one t)).run s follow = some e := by
  obtain ⟨less, eq⟩ := laps_head after
  rw [Node.run, after, stretch_run accepted ends, List.append_nil, eq, List.takeWhile_cons_of_pos,
    List.findSome?_cons_of_isSome]
  · exact leads
  · rw [leads]
    rfl
  · simp
    omega

/-- If no part of the run leads on, neither does the repetition. -/
theorem run_greedy_none (after : s.after = xs ++ rest) (accepted : ∀ g ∈ xs, t.accepts g)
    (ends : Ends t high xs rest)
    (stuck : ∀ ys zs, xs = ys ++ zs → low ≤ ys.length → follow (s.past ys (zs ++ rest)) = none) :
    (Node.repeated .greedy low high (.one t)).run s follow = none := by
  rw [Node.run, after, stretch_run accepted ends, List.append_nil, List.findSome?_eq_none_iff]
  intro e mem
  obtain ⟨ys, zs, rfl, rfl⟩ := mem_laps ((List.takeWhile_sublist _).subset mem) after
  apply stuck ys zs rfl
  have long := List.mem_takeWhile_imp mem
  simpa using long

end Kitchen.Pattern

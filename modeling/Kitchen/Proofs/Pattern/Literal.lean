import Kitchen.Proofs.Pattern.Substitution
import Kitchen.Proofs.Value.Fields
import Kitchen.Proofs.Value.Texts
import Kitchen.Transform.Replace
import Mathlib.Data.Bool.AllAny

/-!
Escaped text is read as a pattern that takes the text as it is. Such a pattern matches where the text stands and
nowhere else, so its matches are the places of the text from the left, none of them overlapping the one before.
-/
namespace Kitchen

open Text (Glyph)

namespace Pattern

-- What takes a text, glyph by glyph.
def Node.text (fold : Fold) : List Glyph → Node
  | [] => .empty
  | [g] => .one (.literal g.code false fold)
  | g :: gs => .cat (.one (.literal g.code false fold)) (text fold gs)

section Reading

variable {α β : Type} {mode : Mode} {r r' : Reader} {c : Char} {g : Glyph} {gs hs : List Glyph}

theorem run_bind {x : Reading α} {f : α → Reading β} {a : α} (ran : x r = .ok (a, r')) :
    (x >>= f) r = f a r' := by
  change (x r >>= fun p => f p.1 p.2) = _
  rw [ran]
  rfl

/-- The escaped text does not end in a lone backslash: one stands only in front of another glyph. -/
theorem escape_fits (gs : List Glyph) : escape gs ≠ [.char '\\'] := by
  cases gs with
  | nil => decide
  | cons g gs =>
    change escapeGlyph g ++ escape gs ≠ _
    unfold escapeGlyph
    split
    · intro lone
      simp at lone
    · next plain =>
      intro lone
      obtain ⟨rfl, -⟩ := List.cons.inj lone
      exact plain (by decide)

theorem peek_end (rest : r.rest = []) : peek r = .ok (none, r) := by
  unfold peek
  rw [run_bind (a := r) rfl, rest]
  rfl

theorem peek_escape (rest : r.rest = .char '\\' :: g :: gs) : peek r = .ok (some (.escape g), r) := by
  unfold peek
  rw [run_bind (a := r) rfl, rest]
  rfl

theorem peek_plain (other : g ≠ .char '\\') (rest : r.rest = g :: gs) :
    peek r = .ok (some (.plain g), r) := by
  unfold peek
  rw [run_bind (a := r) rfl, rest]
  split
  · next none => cases none
  · next _ _ same => exact absurd (List.cons.inj same).1 other
  · next same =>
    obtain ⟨rfl, -⟩ := List.cons.inj same
    rfl

theorem guardNext_run (fits : r.rest ≠ [.char '\\']) : guardNext r = .ok ((), r) := by
  unfold guardNext
  rw [run_bind (a := r) rfl, if_neg fits]
  rfl

theorem take_run {t : Token} (next : peek r = .ok (some t, r)) (left : r.rest.drop t.length = gs)
    (fits : gs ≠ [.char '\\']) : take r = .ok (some t, { r with rest := gs }) := by
  subst left
  unfold take
  rw [run_bind next, run_bind (a := ()) rfl, run_bind (guardNext_run fits)]
  rfl

/-- The escape of what is neither a letter nor a digit is the character itself. -/
theorem escapeNode_self (plain : (isLetter c || isDigit c) = false) :
    escapeNode mode (.char c) r = .ok (character mode (Glyph.char c).code, r) := by
  -- The escapes with a meaning are those of letters and digits, and of the backslash, which means itself.
  have anchor : anchorEscape? mode c = none := by
    unfold anchorEscape?
    split
    all_goals first | rfl | exact absurd plain (by decide)
  have category : categoryEscape? mode.ascii c = none := by
    unfold categoryEscape?
    split
    all_goals first | rfl | exact absurd plain (by decide)
  have control : controlEscape? c = none ∨ c = '\\' := by
    unfold controlEscape?
    split
    all_goals first | exact .inl rfl | exact .inr rfl | exact absurd plain (by decide)
  have common : commonEscape? c r = .ok (none, r) := by
    unfold commonEscape?
    split
    all_goals first | rfl | exact absurd plain (by decide)
  have digit : isDigit c = false := (Bool.or_eq_false_iff.mp plain).2
  have nought : c ≠ '0' := by
    rintro rfl
    exact absurd digit (by decide)
  have self : selfEscape c r = .ok (c.toNat, r) := by
    unfold selfEscape
    rw [plain]
    rfl
  unfold escapeNode
  dsimp only
  rw [anchor, category]
  rcases control with control | rfl
  · rw [control]
    dsimp only
    rw [run_bind common]
    dsimp only
    rw [if_neg nought, digit, if_neg Bool.false_ne_true, run_bind self]
    rfl
  · rfl

theorem bounds_none (plain : g.meets signs.contains = false) : bounds? g r = .ok (none, r) := by
  unfold bounds?
  split
  · exact absurd plain (by decide)
  · exact absurd plain (by decide)
  · exact absurd plain (by decide)
  · exact absurd plain (by decide)
  · rfl

/-- What has no meaning of its own is read as it is. -/
theorem sequence_plain {fuel : Nat} {first : Bool} {done : List Part} (plain : g.meets signs.contains = false)
    (rest : r.rest = g :: gs) (fits : gs ≠ [.char '\\']) :
    sequence (fuel + 1) mode first done r =
      sequence fuel mode first (.plain (character mode g.code) :: done) { r with rest := gs } := by
  have apart : ∀ e ∈ signs, g ≠ .char e := by
    rintro e mem rfl
    rw [Glyph.meets, List.contains_iff_mem.mpr mem] at plain
    cases plain
  have next := peek_plain (apart '\\' (by decide)) rest
  have taken : take r = .ok (some (.plain g), { r with rest := gs }) := by
    apply take_run next _ fits
    rw [rest]
    rfl
  have alternative : ¬(g = .char '|' ∨ g = .char ')') :=
    not_or.mpr ⟨apart _ (by decide), apart _ (by decide)⟩
  have blank : ¬(mode.verbose = true ∧ g.meets " \t\n\r\x0b\x0c".toList.contains = true) := by
    rintro ⟨-, blank⟩
    have blanks : ∀ e ∈ " \t\n\r\x0b\x0c".toList, e ∈ signs := List.all_iff_forall_prop.mp (by decide)
    cases g with
    | char c => exact apart c (blanks c (List.contains_iff_mem.mp blank)) rfl
    | half h => cases blank
  have comment : ¬(mode.verbose = true ∧ g = .char '#') := fun both => apart '#' (by decide) both.2
  rw [sequence, run_bind (a := r) rfl, run_bind next]
  dsimp only
  rw [if_neg alternative, run_bind taken, if_neg blank, if_neg comment, if_neg (apart '[' (by decide)),
    if_neg (apart '.' (by decide)), if_neg (apart '^' (by decide)), if_neg (apart '$' (by decide)),
    if_neg (apart '(' (by decide)), run_bind (bounds_none plain)]

/-- An escaped sign is read as the sign itself. -/
theorem sequence_sign {fuel : Nat} {first : Bool} {done : List Part} (sign : c ∈ signs)
    (rest : r.rest = .char '\\' :: .char c :: gs) (fits : gs ≠ [.char '\\']) :
    sequence (fuel + 1) mode first done r =
      sequence fuel mode first (.plain (character mode (Glyph.char c).code) :: done)
        { r with rest := gs } := by
  have none : ∀ e ∈ signs, (isLetter e || isDigit e) = false := List.all_iff_forall_prop.mp (by decide)
  have next := peek_escape rest
  have taken : take r = .ok (some (.escape (.char c)), { r with rest := gs }) := by
    apply take_run next _ fits
    rw [rest]
    rfl
  rw [sequence, run_bind (a := r) rfl, run_bind next]
  dsimp only
  rw [run_bind taken, run_bind (escapeNode_self (none c sign))]

/-- An escaped text is read to its end, as the glyphs of the text. -/
theorem sequence_escape {fuel : Nat} {first : Bool} {done : List Part} (enough : gs.length < fuel)
    (rest : r.rest = escape gs) : sequence fuel mode first done r =
      .ok (joinParts ((gs.map fun g => Part.plain (character mode g.code)).reverse ++ done),
        { r with rest := [] }) := by
  induction gs generalizing fuel r done with
  | nil =>
    obtain ⟨fuel, rfl⟩ := Nat.exists_eq_add_one_of_ne_zero (Nat.ne_of_gt enough)
    have here : { r with rest := [] } = r := by rw [show [] = r.rest from rest.symm]
    rw [sequence, run_bind (a := r) rfl, run_bind (peek_end rest), here]
    rfl
  | cons g gs ih =>
    obtain ⟨fuel, rfl⟩ := Nat.exists_eq_add_one_of_ne_zero (Nat.ne_of_gt (Nat.zero_lt_of_lt enough))
    have onward : sequence (fuel + 1) mode first done r =
        sequence fuel mode first (.plain (character mode g.code) :: done) { r with rest := escape gs } := by
      have split : escape (g :: gs) = escapeGlyph g ++ escape gs := rfl
      rw [split, escapeGlyph] at rest
      cases sign : g.meets signs.contains with
      | true =>
        rw [if_pos sign] at rest
        cases g with
        | char c => exact sequence_sign (List.contains_iff_mem.mp sign) rest (escape_fits gs)
        | half h => cases sign
      | false =>
        rw [if_neg (Bool.eq_false_iff.mp sign)] at rest
        exact sequence_plain sign rest (escape_fits gs)
    have later : gs.length < fuel := by
      rw [List.length_cons] at enough
      omega
    rw [onward, ih later rfl, List.map_cons, List.reverse_cons, List.append_assoc]
    rfl

/-- Parts that were read one by one are joined in their order. -/
theorem joinParts_cons (first : Part) (ps : List Part) (some : ps ≠ []) :
    joinParts (first :: ps).reverse = .cat first.node (joinParts ps.reverse) := by
  rw [List.reverse_cons]
  unfold joinParts
  cases split : ps.reverse with
  | nil => exact absurd (List.reverse_eq_nil_iff.mp split) some
  | cons last before => simp [List.foldl_append]

theorem joinParts_text (mode : Mode) (gs : List Glyph) :
    joinParts (gs.map fun g => Part.plain (character mode g.code)).reverse = .text mode.fold gs := by
  induction gs with
  | nil => rfl
  | cons g gs ih =>
    cases gs with
    | nil => rfl
    | cons h gs =>
      rw [List.map_cons, joinParts_cons _ _ (by simp), ih]
      rfl

theorem hasFixedLookbehinds_text (fold : Fold) (gs : List Glyph) :
    (Node.text fold gs).hasFixedLookbehinds = true := by
  induction gs with
  | nil => rfl
  | cons g gs ih =>
    cases gs with
    | nil => rfl
    | cons h gs =>
      rw [Node.text, Node.hasFixedLookbehinds, ih]
      · rfl
      · simp

theorem pattern_escape {fuel : Nat} (enough : gs.length < fuel) (rest : r.rest = escape gs)
    (groups : r.widths = []) (asked : r.asked = []) :
    pattern (fuel + 1) mode r = .ok (⟨.text mode.fold gs, 0⟩, { r with rest := [] }) := by
  have read : alternatives (fuel + 1) mode true r =
      .ok (.text mode.fold gs, { r with rest := [] }) := by
    have sequenced : sequence fuel mode true [] r = .ok (.text mode.fold gs, { r with rest := [] }) := by
      rw [sequence_escape enough rest, List.append_nil, joinParts_text]
    have last : accept '|' { r with rest := [] } = .ok (false, { r with rest := [] }) := by
      unfold accept
      rw [run_bind (peek_end rfl)]
      rfl
    rw [alternatives, run_bind sequenced, run_bind last]
    rfl
  have fits : r.rest ≠ [.char '\\'] := by
    rw [rest]
    exact escape_fits gs
  unfold pattern
  rw [run_bind (guardNext_run fits), run_bind read, run_bind (a := { r with rest := [] }) rfl]
  simp only [List.isEmpty_nil, Bool.not_true, Bool.false_eq_true, if_false, asked, groups,
    hasFixedLookbehinds_text]
  rfl

/-- An escaped text is a pattern that takes the text, under whatever flags. -/
theorem readGlyphs_escape (mode : Mode) (gs : List Glyph) :
    readGlyphs mode (escape gs) = .ok ⟨.text mode.fold gs, 0⟩ := by
  have length : gs.length ≤ (escape gs).length := by
    induction gs with
    | nil => exact Nat.le_refl 0
    | cons g gs ih =>
      change gs.length + 1 ≤ (escapeGlyph g ++ escape gs).length
      have one : 1 ≤ (escapeGlyph g).length := by
        unfold escapeGlyph
        split <;> simp
      rw [List.length_append]
      omega
  unfold readGlyphs
  let begun : Reader := ⟨(escape gs).length, escape gs, mode, [], [], none, []⟩
  have enough : gs.length < 4 * (escape gs).length + 7 := by omega
  have read : pattern (4 * (escape gs).length + 8) mode begun =
      .ok (⟨.text mode.fold gs, 0⟩, { begun with rest := [] }) := pattern_escape enough rfl rfl rfl
  change (fun p : Pattern × Reader => p.1) <$> pattern _ mode begun = _
  rw [read]
  rfl

end Reading

variable {p : Pattern} {s : Spot} {nonempty : Bool} {x xs rest : List Glyph} {fuel : Nat} {limit : Option Nat}

/-- Where the text stands, what follows is tried behind it. -/
theorem run_text (after : s.after = xs ++ rest) (follow : Follow) :
    (Node.text .exact xs).run s follow = follow (s.past xs rest) := by
  induction xs generalizing s with
  | nil =>
    obtain rfl : s.after = rest := after
    rw [Node.text, Node.run, Spot.past_nil]
  | cons c xs ih =>
    have accepts : (Test.literal c.code false .exact).accepts c := by
      rw [Test.literal_accepts]
      exact decide_eq_true rfl
    have one : (Node.one (.literal c.code false .exact)).run s follow =
        follow (s.past [c] (xs ++ rest)) := run_one after accepts
    cases xs with
    | nil => exact one
    | cons d xs =>
      have later := ih (s := s.past [c] (d :: xs ++ rest)) rfl
      rw [Node.text, Node.run, run_one after accepts]
      · change (Node.text .exact (d :: xs)).run (s.past [c] (d :: xs ++ rest)) follow = _
        rw [later, Spot.past_past]
        rfl
      · exact List.cons_ne_nil d xs

/-- Where the text does not stand, it is not taken. -/
theorem run_text_none (absent : ¬ xs <+: s.after) (follow : Follow) :
    (Node.text .exact xs).run s follow = none := by
  induction xs generalizing s with
  | nil => exact absurd List.nil_prefix absent
  | cons c xs ih =>
    cases xs with
    | nil =>
      apply run_one_none
      intro d rest after
      rw [Test.literal_accepts, decide_eq_false_iff_not]
      rintro rfl
      exact absent (after ▸ ⟨rest, rfl⟩)
    | cons d xs =>
      rw [Node.text, Node.run]
      · cases after : s.after with
        | nil =>
          apply run_one_none
          intro e rest after'
          exact absurd (after.symm.trans after') (by simp)
        | cons e rest =>
          by_cases same : e = c
          · subst same
            have accepts : (Test.literal e.code false .exact).accepts e := by
              rw [Test.literal_accepts]
              exact decide_eq_true rfl
            rw [run_one after accepts]
            apply ih
            intro here
            apply absent
            rw [after]
            exact List.cons_prefix_cons.mpr ⟨rfl, here⟩
          · apply run_one_none
            intro e' rest' after'
            obtain ⟨rfl, -⟩ := List.cons.inj (after.symm.trans after')
            rw [Test.literal_accepts, decide_eq_false_iff_not]
            exact same
      · exact List.cons_ne_nil d xs

-- The pattern that takes a text.
abbrev text (xs : List Glyph) : Pattern := ⟨.text .exact xs, 0⟩

theorem matchAt_text (filled : xs ≠ []) (after : s.after = xs ++ rest) :
    (text xs).matchAt nonempty s = some (s.past xs rest) := by
  unfold matchAt
  rw [run_text after]
  simp [filled]

theorem matchAt_text_none (absent : ¬ xs <+: s.after) : (text xs).matchAt nonempty s = none :=
  run_text_none absent _

def First (xs before rest : List Glyph) : Prop :=
  ∀ a b, before ++ xs ++ rest = a ++ xs ++ b → before.length ≤ a.length

/-- The search finds the first place of the text. -/
theorem findFrom_text (filled : xs ≠ []) (s : Spot) (nonempty : Bool) :
    (∃ before rest, s.after = before ++ xs ++ rest ∧ First xs before rest ∧
      (text xs).findFrom nonempty s =
        some (s.past before (xs ++ rest), s.past (before ++ xs) rest)) ∨
    ¬ xs <:+: s.after ∧ (text xs).findFrom nonempty s = none := by
  generalize left : s.after = cs
  induction cs generalizing s nonempty with
  | nil =>
    have absent : ¬ xs <:+: s.after := by
      rw [left, List.infix_nil]
      exact filled
    have miss : (text xs).matchAt nonempty s = none := matchAt_text_none fun here => absent here.isInfix
    exact .inr ⟨left ▸ absent, findFrom_end left miss⟩
  | cons c cs ih =>
    by_cases here : xs <+: s.after
    · obtain ⟨rest, after⟩ := here
      refine .inl ⟨[], rest, by rw [← left, ← after, List.nil_append], fun _ _ _ => Nat.zero_le _, ?_⟩
      have hit : (text xs).matchAt nonempty s = some (s.past xs rest) := matchAt_text filled after.symm
      rw [findFrom_here hit, List.nil_append, after, Spot.past_nil]
    · have miss : (text xs).matchAt nonempty s = none := matchAt_text_none here
      rw [findFrom_onward left miss]
      rw [left] at here
      rcases ih (s.past [c] cs) false rfl with ⟨before, rest, after, first, found⟩ | ⟨absent, found⟩
      · refine .inl ⟨c :: before, rest, by rw [after]; rfl, ?_, ?_⟩
        · -- A place at the very front is excluded, and one further on lies behind the first character.
          intro a b same
          cases a with
          | nil =>
            rw [after] at here
            exact absurd ⟨b, same.symm⟩ here
          | cons d a =>
            have later := first a b (List.cons.inj same).2
            rw [List.length_cons, List.length_cons]
            omega
        · rw [found, Spot.past_past, Spot.past_past]
          rfl
      · refine .inr ⟨?_, found⟩
        rw [List.infix_cons_iff]
        exact not_or.mpr ⟨here, absent⟩

-- A text in which the places of `p` gave way to `r` from the left, each of them the first one behind the one
-- before it: all of them, or only so many.
inductive Replaced (p r : List Glyph) : Option Nat → List Glyph → List Glyph → Prop where
  | spent (s : List Glyph) : Replaced p r (some 0) s s
  | absent {limit : Option Nat} {s : List Glyph} (absent : ¬ p <:+: s) : Replaced p r limit s s
  | found {limit : Option Nat} {before rest t : List Glyph} (allowed : limit ≠ some 0)
      (first : First p before rest) (later : Replaced p r (limit.map (· - 1)) rest t) :
      Replaced p r limit (before ++ p ++ rest) (before ++ r ++ t)

theorem First.unique {p before before' rest rest' : List Glyph} (first : First p before rest)
    (first' : First p before' rest') (same : before ++ p ++ rest = before' ++ p ++ rest') :
    before = before' ∧ rest = rest' := by
  have length : before.length = before'.length :=
    Nat.le_antisymm (first before' rest' same) (first' before rest same.symm)
  rw [List.append_assoc, List.append_assoc] at same
  obtain ⟨rfl, behind⟩ := List.append_inj same length
  exact ⟨rfl, List.append_cancel_left behind⟩

/-- There is one such text. -/
theorem Replaced.unique {p r s t t' : List Glyph} (replaced : Replaced p r limit s t)
    (replaced' : Replaced p r limit s t') : t = t' := by
  induction replaced generalizing t' with
  | spent s =>
    cases replaced' with
    | spent => rfl
    | absent => rfl
    | found allowed => exact absurd rfl allowed
  | absent absent =>
    cases replaced' with
    | spent => rfl
    | absent => rfl
    | found => exact absurd ⟨_, _, rfl⟩ absent
  | @found limit before rest t allowed first later ih =>
    generalize whole : before ++ p ++ rest = s at replaced'
    cases replaced' with
    | spent => exact absurd rfl allowed
    | absent absent => exact absurd ⟨before, rest, whole⟩ absent
    | found _ first' later' =>
      obtain ⟨rfl, rfl⟩ := first.unique first' whole
      rw [ih later']

/-- A text that is cut at the places of another one and filled. -/
theorem replaced_go (filled : xs ≠ []) (r : List Glyph) (enough : s.after.length < fuel) :
    Replaced xs r limit s.after
      ((pieces.go (text xs) fuel limit nonempty s).flatMap (Piece.filled r)) := by
  induction fuel generalizing s limit nonempty with
  | zero => exact absurd enough (Nat.not_lt_zero _)
  | succ fuel ih =>
    by_cases spent : limit = some 0
    · subst spent
      rw [pieces.go, filled_keep, List.flatMap_nil, List.append_nil]
      · exact .spent _
      · exact Nat.succ_ne_zero fuel
    · rw [pieces.go]
      · rcases findFrom_text filled s nonempty with ⟨before, rest, after, first, found⟩ | ⟨absent, found⟩
        · -- What is left is shorter than before, since a place takes one character at least.
          have shorter : rest.length < fuel := by
            rw [after, List.length_append, List.length_append] at enough
            have := List.length_pos_iff.mpr filled
            omega
          have split : s.after = before ++ (xs ++ rest) := by rw [after, List.append_assoc]
          have here : s.upTo (s.past before (xs ++ rest)) = before := Spot.upTo_past split rfl
          have joined := Replaced.found spent first
            (@ih (s.past (before ++ xs) rest).cleared
              ((s.past (before ++ xs) rest).place == (s.past before (xs ++ rest)).place)
              (limit.map (· - 1)) shorter)
          rw [← after, List.append_assoc] at joined
          rw [found]
          dsimp only
          rw [here, filled_keep]
          exact joined
        · rw [found]
          dsimp only
          rw [filled_keep, List.flatMap_nil, List.append_nil]
          exact .absent absent
      · exact spent

theorem replaced_pieces (filled : xs ≠ []) (r : List Glyph) (limit : Option Nat) (cs : List Glyph) :
    Replaced xs r limit cs (((text xs).pieces limit cs).flatMap (Piece.filled r)) :=
  replaced_go (s := .start cs 0) filled r (show cs.length < 2 * cs.length + 2 by omega)

end Pattern

namespace Transform

open Value (field?)
open Pattern (Replaced)

theorem fill_text (rs : List Glyph) (pieces : List Pattern.Piece) :
    fill (.ofGlyphs rs) pieces = .ok (pieces.flatMap (Pattern.Piece.filled rs)) := by
  have joined : fill.joined pieces rs = pieces.flatMap (Pattern.Piece.filled rs) :=
    List.flatMap_congr fun piece _ => by cases piece <;> rfl
  unfold fill
  rw [Value.glyphs?_ofGlyphs]
  exact congrArg Except.ok joined

/-- The pattern of a text that is taken literally, where case counts. -/
theorem pattern_literal (ps : List Glyph) (multiline : Bool) :
    Needle.pattern ⟨true, .ofGlyphs ps⟩ (.ofFlags false multiline) = .ok (Pattern.text ps) := by
  have read : Pattern.read (.ofFlags false multiline) (Pattern.escape ps) = .ok (Pattern.text ps) := by
    unfold Pattern.read
    rw [Pattern.readGlyphs_escape]
    rfl
  unfold Needle.pattern
  dsimp only
  rw [Value.glyphs?_ofGlyphs]
  dsimp only
  rw [read]
  rfl

/-- A needle that is not a pattern is looked for as it is, whatever signs it has, and what is put in its place
is put there as it is. Where case counts, every place of the needle is replaced from the left, none
overlapping the one before it, or only the first place is; lines make no difference. -/
theorem findReplace_literal (gs ps rs : List Glyph) (filled : ps ≠ []) {find : List (Value × Value)}
    {option everywhere ignoreCase multiline : Value} (more : List Value)
    (named : field? "option" find = some option) (literal : option.same (.text "Regex") = false)
    (needle : field? "string" find = some (.ofGlyphs ps)) (exact : ignoreCase.truthy = false) :
    ∃ ts, findReplace.run (.ofGlyphs gs)
        (.map find :: .ofGlyphs rs :: everywhere :: ignoreCase :: multiline :: more) =
          .ok (.ofGlyphs ts) ∧
      ∀ us, Replaced ps rs (if everywhere.truthy then none else some 1) gs us ↔ us = ts := by
  have replaced := Pattern.replaced_pieces filled rs (if everywhere.truthy then none else some 1) gs
  refine ⟨_, ?_, fun us => ⟨fun other => other.unique replaced, fun same => same ▸ replaced⟩⟩
  have found : Needle.ofValue (.map find) = ⟨true, .ofGlyphs ps⟩ := by
    unfold Needle.ofValue
    dsimp only
    rw [named, needle, Option.getD_some, Option.getD_some, literal]
    rfl
  have given : (Value.ofGlyphs ps).truthy = true := Value.truthy_ofGlyphs.mpr filled
  have subject : Pattern.subject (.ofGlyphs gs) = .ok gs := by
    unfold Pattern.subject
    rw [Value.glyphs?_ofGlyphs]
  change replaceIn (.ofValue (.map find)) _ _ (.ofFlags ignoreCase.truthy multiline.truthy) _ = _
  rw [found, exact]
  unfold replaceIn
  dsimp only
  rw [given, pattern_literal, subject]
  change (fill (.ofGlyphs rs) _ >>= fun gs => pure (Value.ofGlyphs gs) : Except Failure Value) = _
  rw [fill_text]
  rfl

def dotted : List (Value × Value) :=
  [(.text "option", .text "Simple string"), (.text "string", .ofGlyphs (Glyph.ofText "a.*\\"))]

/-- Its first place gives way to a text that would stand for a group in other tools. -/
theorem findReplace_literal_dotted : Glyph.ofText "a.*\\" ≠ [] ∧
    field? "option" dotted = some (.text "Simple string") ∧
    (Value.text "Simple string").same (.text "Regex") = false ∧
    field? "string" dotted = some (.ofGlyphs (Glyph.ofText "a.*\\")) ∧ (Value.bool false).truthy = false ∧
    findReplace.run (.ofGlyphs (Glyph.ofText "aba.*\\a.*\\"))
      [.map dotted, .ofGlyphs (Glyph.ofText "\\1"), .bool false, .bool false, .bool true] =
        .ok (.ofGlyphs (Glyph.ofText "ab\\1a.*\\")) := by
  have named : field? "option" dotted = some (.text "Simple string") := by
    rw [dotted, Value.field?_cons, if_pos rfl]
  have needle : field? "string" dotted = some (.ofGlyphs (Glyph.ofText "a.*\\")) := by
    rw [dotted, Value.field?_cons, if_neg (by decide), Value.field?_cons, if_pos rfl]
  have filled : Glyph.ofText "a.*\\" ≠ [] := by decide
  have other : (Value.text "Simple string").same (.text "Regex") = false := by decide +kernel
  obtain ⟨ts, ran, only⟩ := @findReplace_literal (Glyph.ofText "aba.*\\a.*\\") (Glyph.ofText "a.*\\")
    (Glyph.ofText "\\1") filled dotted (.text "Simple string") (.bool false) (.bool false) (.bool true) []
    named other needle rfl
  have first : Pattern.First (Glyph.ofText "a.*\\") (Glyph.ofText "ab") (Glyph.ofText "a.*\\") := by
    intro a b same
    rcases a with _ | ⟨g, _ | ⟨h, a⟩⟩
    · simp [Glyph.ofText, Glyph.ofChars] at same
    · simp [Glyph.ofText, Glyph.ofChars] at same
    · simp [Glyph.ofText, Glyph.ofChars]
  have once : Replaced (Glyph.ofText "a.*\\") (Glyph.ofText "\\1") (some 1)
      (Glyph.ofText "aba.*\\a.*\\") (Glyph.ofText "ab\\1a.*\\") :=
    .found (by decide) first (.spent _)
  obtain rfl := (only _).mp once
  exact ⟨filled, named, other, needle, rfl, ran⟩

end Transform

end Kitchen

import Kitchen.Json.Reader
import Kitchen.Json.Writer
import Kitchen.Proofs.Text.Utf8
import Kitchen.Proofs.Value.Texts
import Mathlib.Data.List.Chain

namespace Kitchen

namespace Text

theorem hexValue_hexDigit : ∀ d < 16, hexValue? (hexDigit d) = some d := by
  decide

theorem hexPadded_length (n width : Nat) : (hexPadded n width).length = width := by
  induction width generalizing n with
  | zero => rfl
  | succ width ih => rw [hexPadded, List.length_append, ih, List.length_singleton]

theorem hexNumber_append (cs : List Char) (c : Char) :
    hexNumber? (cs ++ [c]) = (hexNumber? cs).bind fun n => (16 * n + ·) <$> hexValue? c := by
  unfold hexNumber?
  rw [List.foldlM_append]
  cases cs.foldlM (fun n c => (16 * n + ·) <$> hexValue? c) 0 with
  | none => rfl
  | some n =>
    change (hexValue? c |>.map (16 * n + ·)) >>= pure = _
    rw [bind_pure]
    rfl

/-- Hexadecimal digits are read as the number they were written for, as far as they reach. -/
theorem hexNumber_hexPadded (n width : Nat) :
    hexNumber? (hexPadded n width) = some (n % Nat.pow 16 width) := by
  induction width generalizing n with
  | zero =>
    change some 0 = some (n % 1)
    rw [Nat.mod_one]
  | succ width ih =>
    have digit := hexValue_hexDigit (n % 16) (Nat.mod_lt n (by decide))
    have value : n % Nat.pow 16 (width + 1) = n % 16 + 16 * (n / 16 % Nat.pow 16 width) :=
      calc n % Nat.pow 16 (width + 1)
          = n % (16 * Nat.pow 16 width) := congrArg (n % ·) Nat.pow_succ'
        _ = n % 16 + 16 * (n / 16 % Nat.pow 16 width) := Nat.mod_mul
    rw [hexPadded, hexNumber_append, ih, digit, value, Nat.add_comm]
    rfl

end Text

namespace Json

open Text (Glyph)

variable {n : Nat} {more : List Char}

theorem unit_hexPadded (small : n < 0x10000) (further : more ≠ []) :
    unit? (Text.hexPadded n 4 ++ more) = some (n, more) := by
  have length := Text.hexPadded_length n 4
  have long : 4 < (Text.hexPadded n 4 ++ more).length := by
    have := List.length_pos_iff.mpr further
    rw [List.length_append, length]
    omega
  have fits : n % Nat.pow 16 4 = n := Nat.mod_eq_of_lt small
  have number : Text.hexNumber? (Text.hexPadded n 4) = some n := by
    rw [Text.hexNumber_hexPadded, fits]
  unfold unit?
  rw [if_pos long, List.take_left' length, List.drop_left' length, number]
  rfl

/-- A unit that is no high half is read for itself. -/
theorem unitGlyph_single (small : n < 0x10000) (other : isHigh n = false) (further : more ≠ []) :
    unitGlyph (Text.hexPadded n 4 ++ more) = .ok (.ofCode n, more) := by
  unfold unitGlyph
  rw [unit_hexPadded small further]
  dsimp only
  rw [other, if_neg Bool.false_ne_true]

def Unpaired (cs : List Char) : Prop :=
  ∀ more, cs = '\\' :: 'u' :: more → ∃ m left, unit? more = some (m, left) ∧ isLow m = false

/-- A high half is read for itself, unless a low one follows. -/
theorem unitGlyph_high (high : isHigh n) (further : more ≠ []) (unpaired : Unpaired more) :
    unitGlyph (Text.hexPadded n 4 ++ more) = .ok (.ofCode n, more) := by
  have small : n < 0x10000 := by
    simp only [isHigh, Bool.and_eq_true, decide_eq_true_eq] at high
    omega
  unfold unitGlyph
  rw [unit_hexPadded small further]
  dsimp only
  rw [if_pos high]
  split
  · next tail =>
    obtain ⟨m, left, unit, other⟩ := unpaired tail rfl
    have long : ¬tail.length ≤ 4 := by
      intro short
      rw [unit?, if_neg (Nat.not_lt.mpr short)] at unit
      cases unit
    rw [if_neg long, unit]
    dsimp only
    rw [other, if_neg Bool.false_ne_true]
  · rfl

/-- The two halves of a pair are read together. -/
theorem unitGlyph_pair {n m : Nat} (high : isHigh n) (low : isLow m) (further : more ≠ []) :
    unitGlyph (Text.hexPadded n 4 ++ '\\' :: 'u' :: (Text.hexPadded m 4 ++ more)) =
      .ok (.ofCode (0x10000 + (n - 0xD800) * 0x400 + (m - 0xDC00)), more) := by
  have high_small : n < 0x10000 := by
    simp only [isHigh, Bool.and_eq_true, decide_eq_true_eq] at high
    omega
  have low_small : m < 0x10000 := by
    simp only [isLow, Bool.and_eq_true, decide_eq_true_eq] at low
    omega
  have long : ¬(Text.hexPadded m 4 ++ more).length ≤ 4 := by
    have := List.length_pos_iff.mpr further
    rw [List.length_append, Text.hexPadded_length]
    omega
  unfold unitGlyph
  rw [unit_hexPadded high_small (List.cons_ne_nil _ _)]
  dsimp only
  rw [if_pos high]
  -- A high half looks for the escape of a low one right after it, which is there.
  split
  · next tail same =>
    obtain rfl : Text.hexPadded m 4 ++ more = tail := by injection same with _ same; injection same
    rw [if_neg long, unit_hexPadded low_small further]
    dsimp only
    rw [if_pos low]
  · next other => exact absurd rfl (other _)

/-- A character beyond the basic plane is written as such a pair. -/
theorem unitGlyph_astral {c : Char} (astral : 0x10000 ≤ c.toNat) (further : more ≠ []) :
    unitGlyph (Text.hexPadded (0xD800 + (c.toNat - 0x10000) / 0x400) 4 ++
      '\\' :: 'u' :: (Text.hexPadded (0xDC00 + (c.toNat - 0x10000) % 0x400) 4 ++ more)) =
        .ok (.char c, more) := by
  have valid := Text.Utf8.toNat_valid c
  have back : Glyph.ofCode c.toNat = .char c := Glyph.ofCode_code (.char c)
  generalize c.toNat = n at astral valid back ⊢
  have half : (n - 0x10000) % 0x400 < 0x400 := Nat.mod_lt _ (by decide)
  have high : isHigh (0xD800 + (n - 0x10000) / 0x400) := by
    simp only [isHigh, Bool.and_eq_true, decide_eq_true_eq]
    omega
  have low : isLow (0xDC00 + (n - 0x10000) % 0x400) := by
    simp only [isLow, Bool.and_eq_true, decide_eq_true_eq]
    omega
  -- Quotient and remainder by 1024 make up the number again.
  have whole : 0x10000 + (0xD800 + (n - 0x10000) / 0x400 - 0xD800) * 0x400 +
      (0xDC00 + (n - 0x10000) % 0x400 - 0xDC00) = n := by
    omega
  rw [unitGlyph_pair high low further, whole, back]

theorem string_escape {start fuel : Nat} {e d : Char} {left : List Char} (other : e ≠ 'u')
    (simple : simpleEscape? e = some d) :
    string start (fuel + 1) ('\\' :: e :: left) =
      (string start fuel left).map fun read => (.char d :: read.1, read.2) := by
  rw [string]
  simp only [if_neg (show '\\' ≠ '"' by decide), if_neg other, simple, if_true]
  change (string start fuel left >>= _) = _
  cases string start fuel left <;> rfl

theorem string_unit {start fuel : Nat} {g : Glyph} {cs left : List Char}
    (unit : unitGlyph cs = .ok (g, left)) :
    string start (fuel + 1) ('\\' :: 'u' :: cs) =
      (string start fuel left).map fun read => (g :: read.1, read.2) := by
  rw [string]
  simp only [if_neg (show '\\' ≠ '"' by decide), if_true, unit]
  change (string start fuel left >>= _) = _
  cases string start fuel left <;> rfl

theorem string_plain {start fuel : Nat} {c : Char} {left : List Char} (quote : c ≠ '"')
    (slash : c ≠ '\\') (shown : 0x20 ≤ c.toNat) :
    string start (fuel + 1) (c :: left) =
      (string start fuel left).map fun read => (.char c :: read.1, read.2) := by
  rw [string.eq_def]
  dsimp only
  rw [if_neg quote, if_neg slash, if_neg (Nat.not_lt.mpr shown)]
  cases string start fuel left <;> rfl

inductive Escape (c : Char) : List Char → Prop where
  | simple {e : Char} (other : e ≠ 'u') (simple : simpleEscape? e = some c) : Escape c ['\\', e]
  | plain (quote : c ≠ '"') (slash : c ≠ '\\') (shown : 0x20 ≤ c.toNat) : Escape c [c]
  | basic (basic : c.toNat < 0x10000) : Escape c (unitEscape c.toNat)
  | pair (astral : 0x10000 ≤ c.toNat) : Escape c
      (unitEscape (0xD800 + (c.toNat - 0x10000) / 0x400) ++
        unitEscape (0xDC00 + (c.toNat - 0x10000) % 0x400))

theorem escaped_escape (c : Char) : Escape c (escaped c) := by
  unfold escaped
  dsimp only
  -- Seven characters have escapes of their own; the others are told apart by their codes.
  by_cases quote : c = '"'
  · rw [if_pos quote, quote]
    exact .simple (by decide) rfl
  rw [if_neg quote]
  by_cases slash : c = '\\'
  · rw [if_pos slash, slash]
    exact .simple (by decide) rfl
  rw [if_neg slash]
  by_cases newline : c = '\n'
  · rw [if_pos newline, newline]
    exact .simple (by decide) rfl
  rw [if_neg newline]
  by_cases back : c = '\r'
  · rw [if_pos back, back]
    exact .simple (by decide) rfl
  rw [if_neg back]
  by_cases tab : c = '\t'
  · rw [if_pos tab, tab]
    exact .simple (by decide) rfl
  rw [if_neg tab]
  by_cases eight : c.toNat = 0x08
  · rw [if_pos eight, show c = '\x08' from Char.toNat_inj.mp eight]
    exact .simple (by decide) rfl
  rw [if_neg eight]
  by_cases feed : c.toNat = 0x0C
  · rw [if_pos feed, show c = '\x0C' from Char.toNat_inj.mp feed]
    exact .simple (by decide) rfl
  rw [if_neg feed]
  by_cases shown : 0x20 ≤ c.toNat ∧ c.toNat ≤ 0x7E
  · rw [if_pos shown]
    exact .plain quote slash shown.1
  rw [if_neg shown]
  by_cases basic : c.toNat < 0x10000
  · rw [if_pos basic]
    exact .basic basic
  · rw [if_neg basic]
    exact .pair (Nat.le_of_not_lt basic)

theorem Escape.ne_nil {c : Char} {cs : List Char} (escape : Escape c cs) : cs ≠ [] := by
  cases escape with
  | simple other simple => exact List.cons_ne_nil _ _
  | plain quote slash shown => exact List.cons_ne_nil _ _
  | basic basic => exact List.cons_ne_nil _ _
  | pair astral => exact List.cons_ne_nil _ _

theorem isHigh_char (c : Char) : isHigh c.toNat = false := by
  have valid := Text.Utf8.toNat_valid c
  simp only [isHigh, Bool.and_eq_false_iff, decide_eq_false_iff_not]
  omega

theorem isLow_char (c : Char) : isLow c.toNat = false := by
  have valid := Text.Utf8.toNat_valid c
  simp only [isLow, Bool.and_eq_false_iff, decide_eq_false_iff_not]
  omega

/-- However a character is written, it is read in one round. -/
theorem Escape.string {start fuel : Nat} {c : Char} {cs : List Char} (escape : Escape c cs)
    (further : more ≠ []) :
    string start (fuel + 1) (cs ++ more) =
      (string start fuel more).map fun read => (.char c :: read.1, read.2) := by
  cases escape with
  | simple other simple => exact string_escape other simple
  | plain quote slash shown => exact string_plain quote slash shown
  | basic basic =>
    have unit := unitGlyph_single basic (isHigh_char c) further
    rw [show Glyph.ofCode c.toNat = .char c from Glyph.ofCode_code (.char c)] at unit
    exact string_unit unit
  | pair astral =>
    refine Eq.trans ?_ (string_unit (unitGlyph_astral astral further))
    simp only [unitEscape, List.cons_append, List.append_assoc]

theorem unpaired_unit (small : n < 0x10000) (other : isLow n = false) (further : more ≠ []) :
    Unpaired (unitEscape n ++ more) := by
  intro tail same
  obtain rfl : Text.hexPadded n 4 ++ more = tail := (List.cons.inj (List.cons.inj same).2).2
  exact ⟨n, more, unit_hexPadded small further, other⟩

/-- No character begins with a low half, however it is written. -/
theorem Escape.unpaired {c : Char} {cs : List Char} (escape : Escape c cs) (further : more ≠ []) :
    Unpaired (cs ++ more) := by
  cases escape with
  | simple other simple =>
    intro tail same
    exact absurd (List.cons.inj (List.cons.inj same).2).1 other
  | plain quote slash shown =>
    intro tail same
    exact absurd (List.cons.inj same).1 slash
  | basic basic => exact unpaired_unit basic (isLow_char c) further
  | pair astral =>
    have valid := Text.Utf8.toNat_valid c
    have small : 0xD800 + (c.toNat - 0x10000) / 0x400 < 0xDC00 := by omega
    have other : isLow (0xD800 + (c.toNat - 0x10000) / 0x400) = false := by
      simp only [isLow, Bool.and_eq_false_iff, decide_eq_false_iff_not]
      omega
    rw [List.append_assoc]
    exact unpaired_unit (Nat.lt_trans small (by decide)) other (List.cons_ne_nil _ _)

variable {g h : Glyph} {start fuel : Nat}

theorem half_small (e : Text.Half) : e.code < 0x10000 := by
  have bounds := e.bounds
  omega

theorem escapedGlyph_ne_nil (g : Glyph) : escapedGlyph g ≠ [] := by
  cases g with
  | char c => exact (escaped_escape c).ne_nil
  | half e => exact List.cons_ne_nil _ _

theorem unpaired_glyph (other : isLow g.code = false) (further : more ≠ []) :
    Unpaired (escapedGlyph g ++ more) := by
  cases g with
  | char c => exact (escaped_escape c).unpaired further
  | half e => exact unpaired_unit (half_small e) other further

/-- A glyph is read in one round, unless it is a high half before a low one. -/
theorem string_glyph (further : more ≠ []) (unpaired : isHigh g.code → Unpaired more) :
    string start (fuel + 1) (escapedGlyph g ++ more) =
      (string start fuel more).map fun read => (g :: read.1, read.2) := by
  cases g with
  | char c => exact (escaped_escape c).string further
  | half e =>
    have back : Glyph.ofCode e.code = .half e := Glyph.ofCode_code (.half e)
    have unit : unitGlyph (Text.hexPadded e.code 4 ++ more) = .ok (.half e, more) := by
      rw [← back]
      by_cases high : isHigh e.code
      · exact unitGlyph_high high further (unpaired high)
      · exact unitGlyph_single (half_small e) (Bool.eq_false_iff.mpr high) further
    exact string_unit unit

def Pairs (g h : Glyph) : Bool :=
  isHigh g.code && isLow h.code

def paired : List Glyph → List Glyph
  | [] => []
  | [g] => [g]
  | g :: h :: gs =>
    if Pairs g h then .ofCode (0x10000 + (g.code - 0xD800) * 0x400 + (h.code - 0xDC00)) :: paired gs
    else g :: paired (h :: gs)

-- No two halves of one character stand side by side.
def Apart (gs : List Glyph) : Prop :=
  gs.IsChain fun g h => Pairs g h = false

theorem Apart.paired {gs : List Glyph} (apart : Apart gs) : paired gs = gs := by
  induction gs using paired.induct with
  | case1 => rfl
  | case2 g => rfl
  | case3 g h gs pairs ih =>
    rw [(List.isChain_cons_cons.mp apart).1] at pairs
    cases pairs
  | case4 g h gs other ih =>
    rw [Json.paired, if_neg other, ih (List.isChain_cons_cons.mp apart).2]

theorem apart_ofChars (cs : List Char) : Apart (Glyph.ofChars cs) := by
  unfold Apart
  rw [Glyph.ofChars, List.isChain_map]
  refine List.Pairwise.isChain (List.pairwise_of_forall fun c d => ?_)
  exact Bool.and_eq_false_iff.mpr (.inl (isHigh_char c))

theorem escapedGlyph_half (pairs : isHigh g.code ∨ isLow g.code) : escapedGlyph g = unitEscape g.code := by
  cases g with
  | char c =>
    rcases pairs with high | low
    · exact absurd high (Bool.eq_false_iff.mp (isHigh_char c))
    · exact absurd low (Bool.eq_false_iff.mp (isLow_char c))
  | half e => rfl

/-- A written string is read back, and what follows it is left. -/
theorem string_quoted (gs : List Glyph) (rest : List Char) (enough : gs.length < fuel) :
    string start fuel (gs.flatMap escapedGlyph ++ '"' :: rest) = .ok (paired gs, rest) := by
  -- The induction is on what is read in one round: one glyph, or two halves of one character.
  induction gs using paired.induct generalizing fuel with
  | case1 =>
    obtain ⟨fuel, rfl⟩ := Nat.exists_eq_succ_of_ne_zero (Nat.ne_of_gt enough)
    change string start (fuel + 1) ('"' :: rest) = _
    unfold string
    rw [if_pos rfl]
    rfl
  | case2 g =>
    obtain ⟨fuel, rfl⟩ : ∃ f, fuel = f + 2 := Nat.exists_eq_add_of_le' enough
    have free : isHigh g.code → Unpaired ('"' :: rest) :=
      fun _ more same => absurd (List.cons.inj same).1 (by decide)
    have last : string start (fuel + 1) ('"' :: rest) = .ok ([], rest) := by
      unfold string
      rw [if_pos rfl]
    rw [List.flatMap_singleton, string_glyph (List.cons_ne_nil _ _) free, last]
    rfl
  | case3 g h gs pairs ih =>
    obtain ⟨fuel, rfl⟩ := Nat.exists_eq_succ_of_ne_zero (Nat.ne_of_gt (Nat.zero_lt_of_lt enough))
    have further : gs.flatMap escapedGlyph ++ '"' :: rest ≠ [] :=
      List.append_ne_nil_of_right_ne_nil _ (List.cons_ne_nil _ _)
    have left : gs.length < fuel := by
      rw [List.length_cons, List.length_cons] at enough
      omega
    obtain ⟨high, low⟩ := Bool.and_eq_true_iff.mp pairs
    rw [List.flatMap_cons, List.flatMap_cons, escapedGlyph_half (.inl high), escapedGlyph_half (.inr low),
      paired, if_pos pairs]
    refine Eq.trans ?_ ((string_unit (unitGlyph_pair high low further)).trans (by rw [ih left]; rfl))
    simp only [unitEscape, List.cons_append, List.append_assoc]
  | case4 g h gs other ih =>
    obtain ⟨fuel, rfl⟩ := Nat.exists_eq_succ_of_ne_zero (Nat.ne_of_gt (Nat.zero_lt_of_lt enough))
    have further : gs.flatMap escapedGlyph ++ '"' :: rest ≠ [] :=
      List.append_ne_nil_of_right_ne_nil _ (List.cons_ne_nil _ _)
    have further' : (h :: gs).flatMap escapedGlyph ++ '"' :: rest ≠ [] :=
      List.append_ne_nil_of_right_ne_nil _ (List.cons_ne_nil _ _)
    have free : isHigh g.code → Unpaired ((h :: gs).flatMap escapedGlyph ++ '"' :: rest) := by
      intro high
      rw [List.flatMap_cons, List.append_assoc]
      apply unpaired_glyph _ further
      rw [Pairs, high, Bool.true_and] at other
      exact Bool.eq_false_iff.mpr other
    rw [List.flatMap_cons, List.append_assoc, string_glyph further' free, ih (Nat.lt_of_succ_lt_succ enough),
      paired, if_neg other]
    rfl

/-- A written string is no shorter than what it was written for. -/
theorem flatMap_escaped_length (gs : List Glyph) : gs.length ≤ (gs.flatMap escapedGlyph).length := by
  induction gs with
  | nil => exact Nat.le_refl 0
  | cons g gs ih =>
    have one := List.length_pos_iff.mpr (escapedGlyph_ne_nil g)
    rw [List.flatMap_cons, List.length_append, List.length_cons]
    omega

end Json

end Kitchen

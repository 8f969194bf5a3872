import Kitchen.Proofs.Json.Plain
import Kitchen.Proofs.Json.Strings
import Kitchen.Proofs.Number.Grammar
import Kitchen.Proofs.Number.Whole
import Kitchen.Proofs.Value.Fields

namespace Kitchen.Json

open Number (Digits Whole Fraction Exponent Decimal)

variable {cs ds rest : List Char} {v : Value}

theorem isDigit_eq (c : Char) : isDigit c = c.isDigit := by
  simp only [isDigit, Char.isDigit, Char.le_def]

theorem isDigit_of {c : Char} (digit : c.isDigit) : isDigit c :=
  (isDigit_eq c).trans digit

def Stops (cs : List Char) : Prop :=
  ∀ c ∈ cs.head?, isDigit c = false

theorem takeWhile_digits (digits : Digits ds) (stops : Stops rest) :
    (ds ++ rest).takeWhile isDigit = ds ∧ (ds ++ rest).dropWhile isDigit = rest := by
  have all : ∀ c ∈ ds, isDigit c := fun c mem => isDigit_of (digits c mem)
  have none : rest.takeWhile isDigit = [] ∧ rest.dropWhile isDigit = rest := by
    cases rest with
    | nil => exact ⟨rfl, rfl⟩
    | cons c rest =>
      have other : isDigit c = false := stops c rfl
      simp only [List.takeWhile_cons, List.dropWhile_cons, other, Bool.false_eq_true, if_false,
        and_self]
  rw [List.takeWhile_append_of_pos all, List.dropWhile_append_of_pos all, none.1, none.2,
    List.append_nil]
  exact ⟨rfl, rfl⟩

theorem wholePart_whole (whole : Whole ds) (stops : Stops rest) :
    wholePart? (ds ++ rest) = some (ds, rest) := by
  cases whole with
  | zero => rfl
  | @digits c ds nonzero digits =>
    have digit : isDigit c := isDigit_of (digits c List.mem_cons_self)
    obtain ⟨taken, dropped⟩ := takeWhile_digits digits stops
    change wholePart? (c :: (ds ++ rest)) = _
    unfold wholePart?
    split
    · next same => exact absurd (List.cons.inj same).1 nonzero
    · next c' cs' _ same =>
      obtain ⟨rfl, rfl⟩ := List.cons.inj same
      rw [if_pos digit, ← List.cons_append, taken, dropped]
    · next same => cases same

theorem fraction_digits {c : Char} (digits : Digits (c :: ds)) (stops : Stops rest) :
    fraction? ('.' :: c :: ds ++ rest) = some (c :: ds, rest) := by
  have digit : isDigit c := isDigit_of (digits c List.mem_cons_self)
  obtain ⟨taken, dropped⟩ := takeWhile_digits digits stops
  change fraction? ('.' :: c :: (ds ++ rest)) = _
  rw [fraction?, if_pos digit, ← List.cons_append, taken, dropped]

inductive Power : List Char → Prop where
  | none : Power []
  | digits {letter c : Char} {sign ds : List Char} (power : letter = 'e' ∨ letter = 'E')
      (signed : Number.Sign sign) (digits : Digits (c :: ds)) :
      Power (letter :: (sign ++ c :: ds))

theorem power_of_exponent {e : List Char} (exponent : Exponent e) : Power e := by
  cases exponent with
  | none => exact .none
  | @digits sign c ds signed digits =>
    have power : Power ('e' :: ([sign] ++ c :: ds)) := by
      apply Power.digits (.inl rfl) _ digits
      rcases signed with rfl | rfl
      · exact .inr (.inl rfl)
      · exact .inr (.inr rfl)
    exact power

def Ends (rest : List Char) : Prop :=
  ∀ c ∈ rest.head?, isDigit c = false ∧ c ≠ '.' ∧ c ≠ 'e' ∧ c ≠ 'E'

theorem Ends.stops (ends : Ends rest) : Stops rest :=
  fun c here => (ends c here).1

theorem Ends.fraction (ends : Ends rest) : fraction? rest = none := by
  cases rest with
  | nil => rfl
  | cons c rest =>
    unfold fraction?
    split
    · next same =>
      obtain ⟨rfl, -⟩ := List.cons.inj same
      exact absurd rfl (ends '.' rfl).2.1
    · rfl

theorem Ends.exponent (ends : Ends rest) : exponent? rest = none := by
  cases rest with
  | nil => rfl
  | cons c rest =>
    obtain ⟨-, -, lower, upper⟩ := ends c rfl
    rw [exponent?, if_neg (not_or.mpr ⟨lower, upper⟩)]

theorem exponent_digits {letter c : Char} {sign : List Char} (power : letter = 'e' ∨ letter = 'E')
    (signed : Number.Sign sign) (digits : Digits (c :: ds)) (stops : Stops rest) :
    ∃ e, exponent? (letter :: (sign ++ c :: ds) ++ rest) = some (e, rest) := by
  obtain ⟨taken, dropped⟩ := takeWhile_digits digits stops
  have unsigned : ∀ d ∈ (c :: (ds ++ rest)).head?, d ≠ '-' ∧ d ≠ '+' := by
    intro d here
    obtain rfl := Option.some.inj here
    have digit := digits c List.mem_cons_self
    constructor <;> rintro rfl <;> cases digit
  obtain ⟨negative, split⟩ := Number.splitSign_unsigned signed unsigned
  refine ⟨Number.signed negative (natOf (c :: ds)), ?_⟩
  rw [List.cons_append, List.append_assoc, List.cons_append, exponent?, if_pos power, split]
  dsimp only
  rw [← List.cons_append, taken, dropped]
  rfl

theorem power_stops {e : List Char} (power : Power e) (ends : Ends rest) : Stops (e ++ rest) := by
  cases power with
  | none => exact ends.stops
  | digits letter signed digits =>
    intro c here
    obtain rfl := Option.some.inj here
    rcases letter with rfl | rfl <;> rfl

theorem fraction_stops {f e : List Char} (fraction : Fraction f) (power : Power e) (ends : Ends rest) :
    Stops (f ++ (e ++ rest)) := by
  cases fraction with
  | none =>
    rw [List.nil_append]
    exact power_stops power ends
  | digits digits =>
    intro c here
    obtain rfl := Option.some.inj here
    rfl

theorem fraction_read {f e : List Char} (fraction : Fraction f) (power : Power e) (ends : Ends rest) :
    ∃ fs, (fraction? (f ++ (e ++ rest))).getD ([], f ++ (e ++ rest)) =
      (fs, e ++ rest) ∧ (fs = [] ↔ f = []) := by
  have stops := power_stops power ends
  cases fraction with
  | none =>
    have nothing : fraction? (e ++ rest) = none := by
      cases power with
      | none => exact ends.fraction
      | digits letter signed digits => rcases letter with rfl | rfl <;> rfl
    refine ⟨[], ?_, Iff.rfl⟩
    rw [List.nil_append, nothing]
    rfl
  | digits digits =>
    rw [fraction_digits digits stops]
    exact ⟨_, rfl, by simp⟩

theorem power_read {e : List Char} (power : Power e) (ends : Ends rest) :
    (exponent? (e ++ rest) = none ∧ e = []) ∨ ∃ n, exponent? (e ++ rest) = some (n, rest) := by
  cases power with
  | none => exact .inl ⟨ends.exponent, rfl⟩
  | digits letter signed digits => exact .inr (exponent_digits letter signed digits ends.stops)

/-- A sign is split off in front of a numeral that begins with a digit. -/
theorem number_sign {c : Char} (cs : List Char) (digit : c.isDigit) (negative : Bool) :
    (match (if negative then '-' :: c :: cs else c :: cs : List Char) with
      | '-' :: rest => (true, rest)
      | _ => (false, if negative then '-' :: c :: cs else c :: cs)) = (negative, c :: cs) := by
  cases negative with
  | true => rfl
  | false =>
    simp only [Bool.false_eq_true, if_false]
    split
    · next same =>
      obtain ⟨rfl, -⟩ := List.cons.inj same
      cases digit
    · rfl

/-- Every numeral is read as a number, unless it is that of a whole number with too many digits. -/
theorem number_read {w f e : List Char} (negative : Bool) (whole : Whole w) (fraction : Fraction f)
    (power : Power e) (ends : Ends rest)
    (few : f = [] → e = [] → w.length ≤ Number.digitLimit) :
    ∃ v, number (if negative then '-' :: (w ++ (f ++ (e ++ rest))) else w ++ (f ++ (e ++ rest))) =
      .ok (v, rest) ∧ (f = [] → e = [] → v = .int (Number.signed negative (natOf w))) := by
  have first := wholePart_whole whole (fraction_stops fraction power ends)
  obtain ⟨fs, second, bare⟩ := fraction_read fraction power ends
  have third := power_read power ends
  obtain ⟨c, ds, rfl, digit⟩ := whole.cons
  have sign := number_sign (ds ++ (f ++ (e ++ rest))) digit negative
  -- The parts are found one after the other; each of them ends where the next one begins.
  unfold number
  split
  next negative' body same =>
  obtain ⟨rfl, rfl⟩ := Prod.mk.inj (sign.symm.trans same)
  rw [← List.cons_append, first]
  dsimp only
  rw [second]
  dsimp only
  rcases third with ⟨third, rfl⟩ | ⟨n, third⟩
  · rw [third]
    by_cases none : f = []
    · -- Without a fraction and an exponent it is a whole number.
      obtain rfl := bare.mpr none
      subst none
      have plain : (([] : List Char).isEmpty && (none : Option (Int × List Char)).isNone) = true := rfl
      rw [if_pos plain, if_neg (Nat.not_lt.mpr (few rfl rfl))]
      exact ⟨_, rfl, fun _ _ => rfl⟩
    · have some : fs.isEmpty = false := List.isEmpty_eq_false_iff.mpr fun h => none (bare.mp h)
      rw [some, if_neg (by simp)]
      exact ⟨_, rfl, fun bare => absurd bare none⟩
  · have float : e ≠ [] := by
      rintro rfl
      rw [List.nil_append, ends.exponent] at third
      cases third
    rw [third, if_neg (by simp)]
    exact ⟨_, rfl, fun _ bare => absurd bare float⟩

def Leads (c : Char) : Prop :=
  isBlank c = false ∧ c ≠ ']' ∧ c ≠ '}' ∧ c ≠ '\uFEFF'

instance (c : Char) : Decidable (Leads c) :=
  inferInstanceAs (Decidable (isBlank c = false ∧ c ≠ ']' ∧ c ≠ '}' ∧ c ≠ '\uFEFF'))

def Leading (cs : List Char) : Prop :=
  ∃ c tail, cs = c :: tail ∧ Leads c

def Back (v w : Value) : Prop :=
  Exact v → w = v

-- A text that is read as what a value comes back as, whatever follows it, within as much fuel as it has
-- characters.
structure Readable (v : Value) (cs : List Char) : Prop where
  leads : Leading cs
  read : ∀ fuel rest, cs.length ≤ fuel → Ends rest →
    ∃ w, value fuel (cs ++ rest) = .ok (w, rest) ∧ Back v w

/-- A text with a first character is read with some fuel, or there was not enough. -/
theorem Readable.of_next (leads : Leading cs)
    (read : ∀ fuel rest, cs.length ≤ fuel + 1 → Ends rest →
      ∃ w, value (fuel + 1) (cs ++ rest) = .ok (w, rest) ∧ Back v w) : Readable v cs := by
  refine ⟨leads, fun fuel rest enough ends => ?_⟩
  cases fuel with
  | zero =>
    obtain ⟨c, tail, rfl, -⟩ := leads
    exact absurd enough (Nat.not_succ_le_zero _)
  | succ fuel => exact read fuel rest enough ends

theorem value_found {fuel : Nat} {c : Char} (other : c ≠ '"' ∧ c ≠ '[' ∧ c ≠ '{')
    (found : word? (c :: cs) = some (v, rest)) : value (fuel + 1) (c :: cs) = .ok (v, rest) := by
  rw [Json.value, if_neg other.1, if_neg other.2.1, if_neg other.2.2, found]

theorem value_number (fuel : Nat) {c : Char} (other : c ≠ '"' ∧ c ≠ '[' ∧ c ≠ '{')
    (none : word? (c :: cs) = none) : value (fuel + 1) (c :: cs) = number (c :: cs) := by
  rw [Json.value, if_neg other.1, if_neg other.2.1, if_neg other.2.2, none]

theorem word_readable {w : Value} (mem : (cs, w) ∈ words) (back : Back v w) : Readable v cs := by
  -- All six are told by their letters alone, so nothing that follows matters.
  have all : ∀ w ∈ words, Leading w.1 ∧
      ∀ fuel rest, value (fuel + 1) (w.1 ++ rest) = .ok (w.2, rest) := by
    intro w mem
    simp only [words, List.mem_cons, List.not_mem_nil, or_false] at mem
    rcases mem with rfl | rfl | rfl | rfl | rfl | rfl <;>
      exact ⟨⟨_, _, rfl, by decide⟩, fun fuel rest => value_found (by decide) rfl⟩
  obtain ⟨leads, read⟩ := all _ mem
  exact .of_next leads fun fuel rest _ _ => ⟨w, read fuel rest, back⟩

/-- No word begins with a digit, nor with a minus sign and a digit. -/
theorem word_none {c : Char} (cs : List Char) (digit : c.isDigit) (negative : Bool) :
    word? (if negative then '-' :: c :: cs else c :: cs) = none := by
  have letters : ∀ w ∈ words, ∃ a b tail, w.1 = a :: b :: tail ∧ a.isDigit = false ∧
      b.isDigit = false := by
    intro w mem
    simp only [words, List.mem_cons, List.not_mem_nil, or_false] at mem
    rcases mem with rfl | rfl | rfl | rfl | rfl | rfl <;> exact ⟨_, _, _, rfl, by decide, by decide⟩
  have other : ∀ a : Char, a.isDigit = false → (a == c) = false := by
    intro a letter
    apply beq_false_of_ne
    rintro rfl
    rw [digit] at letter
    cases letter
  have none : words.find? (fun w => w.1.isPrefixOf (if negative then '-' :: c :: cs else c :: cs)) =
      none := by
    apply List.find?_eq_none.mpr
    intro w mem
    obtain ⟨a, b, tail, here, first, second⟩ := letters w mem
    rw [here]
    cases negative with
    | true => simp [List.isPrefixOf, other b second]
    | false => simp [List.isPrefixOf, other a first]
  unfold word?
  rw [none]
  rfl

theorem leads_digit {c : Char} (digit : c.isDigit) : Leads c := by
  refine ⟨?_, ?_, ?_, ?_⟩
  · simp only [isBlank, Bool.or_eq_false_iff, decide_eq_false_iff_not]
    refine ⟨⟨⟨?_, ?_⟩, ?_⟩, ?_⟩ <;> rintro rfl <;> cases digit
  all_goals
    rintro rfl
    cases digit

theorem numeral_readable {w f e : List Char} (negative : Bool) (whole : Whole w)
    (fraction : Fraction f) (power : Power e)
    (few : f = [] → e = [] → w.length ≤ Number.digitLimit)
    (back : ∀ n, (f = [] → e = [] → n = .int (Number.signed negative (natOf w))) → Back v n) :
    Readable v (if negative then '-' :: (w ++ (f ++ e)) else w ++ (f ++ e)) := by
  obtain ⟨c, ds, rfl, digit⟩ := whole.cons
  have other : c ≠ '"' ∧ c ≠ '[' ∧ c ≠ '{' := by
    refine ⟨?_, ?_, ?_⟩
    all_goals
      rintro rfl
      cases digit
  apply Readable.of_next
  · cases negative with
    | true => exact ⟨'-', _, rfl, by decide⟩
    | false => exact ⟨c, _, rfl, leads_digit digit⟩
  · intro fuel rest _ ends
    obtain ⟨n, read, bare⟩ := number_read negative whole fraction power ends few
    have none := word_none (ds ++ (f ++ (e ++ rest))) digit negative
    refine ⟨n, ?_, back n bare⟩
    cases negative with
    | true =>
      have number := value_number fuel (by decide) none
      rw [if_pos rfl, List.cons_append, List.append_assoc, List.append_assoc]
      exact number.trans read
    | false =>
      have number := value_number fuel other none
      rw [if_neg Bool.false_ne_true, List.append_assoc, List.append_assoc]
      exact number.trans read

theorem natOf_digitsOf (n : Nat) : natOf (Number.digitsOf n) = n :=
  Nat.ofDigitChars_ten_toDigits

theorem int_readable {n : Int} (short : Number.Short n) : Readable (.int n) (intText n) := by
  have back : ∀ m, (([] : List Char) = [] → ([] : List Char) = [] → m = .int (Number.signed (decide (n < 0))
      (natOf (Number.digitsOf n.natAbs)))) → Back (.int n) m := by
    intro m bare _
    rw [bare rfl rfl, natOf_digitsOf, Number.signed_natAbs]
  have readable := numeral_readable (decide (n < 0)) (Number.whole_digitsOf n.natAbs) .none .none
    (fun _ _ => short.length) back
  simp only [List.append_nil, decide_eq_true_eq] at readable
  rw [intText, Number.toList_toString]
  exact readable

/-- Floats may come back as others. -/
theorem back_float (x : Float) (w : Value) : Back (.float x) w :=
  fun exact => by cases exact

theorem float_readable (x : Float) : Readable (.float x) (floatText x) := by
  unfold floatText
  cases parts : Number.parts x with
  | nan => exact word_readable (w := .float Number.notANumber) (by simp [words]) (back_float x _)
  | infinite negative =>
    cases negative with
    | true => exact word_readable (w := .float (-Number.infinity)) (by simp [words]) (back_float x _)
    | false => exact word_readable (w := .float Number.infinity) (by simp [words]) (back_float x _)
  | finite negative m q =>
    obtain ⟨cs, decimal, text⟩ := Number.floatText_decimal parts
    obtain ⟨whole, fraction, exponent, more⟩ := decimal
    dsimp only
    rw [text]
    refine numeral_readable negative whole fraction (power_of_exponent exponent) ?_ fun w _ => back_float x w
    intro bare bare'
    exact absurd bare' (more.resolve_left fun some => some bare)

theorem ends_nil : Ends [] :=
  fun _ here => by cases here

/-- A text that goes on with a comma or a closing sign goes on with no numeral. -/
theorem ends_cons {c : Char} (rest : List Char) (other : isDigit c = false ∧ c ≠ '.' ∧ c ≠ 'e' ∧ c ≠ 'E') :
    Ends (c :: rest) := by
  intro d here
  obtain rfl := Option.some.inj here
  exact other

theorem ends_comma (rest : List Char) : Ends (',' :: rest) :=
  ends_cons rest (by decide)

theorem ends_bracket (rest : List Char) : Ends (']' :: rest) :=
  ends_cons rest (by decide)

theorem ends_brace (rest : List Char) : Ends ('}' :: rest) :=
  ends_cons rest (by decide)

theorem joined_cons (separator cs cs' : List Char) (css : List (List Char)) :
    joined separator (cs :: cs' :: css) = cs ++ separator ++ joined separator (cs' :: css) :=
  rfl

theorem Leading.append (leads : Leading cs) (rest : List Char) : Leading (cs ++ rest) := by
  obtain ⟨c, tail, rfl, lead⟩ := leads
  exact ⟨c, tail ++ rest, rfl, lead⟩

theorem Leading.joined (leads : Leading cs) (separator : List Char) (css : List (List Char)) :
    Leading (joined separator (cs :: css)) := by
  cases css with
  | nil => exact leads
  | cons cs' css' =>
    rw [joined_cons, List.append_assoc]
    exact leads.append _

/-- There are no blanks in front of a written value but those that are skipped. -/
theorem Leading.skipBlanks (leads : Leading cs) {blanks : List Char} (blank : ∀ c ∈ blanks, isBlank c) :
    skipBlank (blanks ++ cs) = cs := by
  obtain ⟨c, tail, rfl, lead⟩ := leads
  have first : isBlank c = false := lead.1
  unfold skipBlank
  rw [List.dropWhile_append_of_pos blank, List.dropWhile_cons, first, if_neg Bool.false_ne_true]

theorem Leading.skipBlank (leads : Leading cs) : skipBlank cs = cs :=
  skipBlanks leads (List.forall_mem_nil _)

theorem quoted_append (gs : List Text.Glyph) (rest : List Char) :
    quoted gs ++ rest = '"' :: (gs.flatMap escapedGlyph ++ '"' :: rest) := by
  simp only [quoted, List.cons_append, List.append_assoc, List.nil_append]

theorem quoted_size (gs : List Text.Glyph) (rest : List Char) :
    gs.length < (gs.flatMap escapedGlyph ++ '"' :: rest).length + 1 := by
  have := flatMap_escaped_length gs
  rw [List.length_append]
  omega

/-- A text may come back as another one, if two halves of one character stand side by side in it. -/
theorem back_paired (gs : List Text.Glyph) : Back (.ofGlyphs gs) (.ofGlyphs (paired gs)) :=
  fun exact => congrArg Value.ofGlyphs (exact_ofGlyphs.mp exact).paired

theorem text_readable (gs : List Text.Glyph) : Readable (.ofGlyphs gs) (quoted gs) := by
  apply Readable.of_next
  · exact ⟨'"', _, rfl, by decide⟩
  · intro fuel rest _ _
    refine ⟨.ofGlyphs (paired gs), ?_, back_paired gs⟩
    rw [quoted_append, Json.value, if_pos rfl, string_quoted gs rest (quoted_size gs rest)]
    rfl

structure Layout.Legible (layout : Layout) : Prop where
  comma : ∃ blanks, layout.comma = ',' :: blanks ∧ ∀ c ∈ blanks, isBlank c
  colon : ∃ blanks, layout.colon = ':' :: blanks ∧ ∀ c ∈ blanks, isBlank c

theorem spaced_legible : spaced.Legible where
  comma := ⟨[' '], rfl, List.forall_mem_singleton.mpr rfl⟩
  colon := ⟨[' '], rfl, List.forall_mem_singleton.mpr rfl⟩

variable {layout : Layout}

/-- After a comma, blanks are skipped before the next text. -/
theorem Layout.Legible.joined_append (legible : layout.Legible) : ∃ blanks, (∀ c ∈ blanks, isBlank c) ∧
    ∀ cs cs' css rest, joined layout.comma (cs :: cs' :: css) ++ rest =
      cs ++ ',' :: (blanks ++ (joined layout.comma (cs' :: css) ++ rest)) := by
  obtain ⟨blanks, comma, blank⟩ := legible.comma
  refine ⟨blanks, blank, fun cs cs' css rest => ?_⟩
  rw [joined_cons, List.append_assoc, List.append_assoc, comma, List.cons_append]

/-- Texts that are joined are longer than each of them and those after it. -/
theorem Layout.Legible.joined_length (legible : layout.Legible) (cs cs' : List Char)
    (css : List (List Char)) : cs.length + (joined layout.comma (cs' :: css)).length <
      (joined layout.comma (cs :: cs' :: css)).length := by
  obtain ⟨blanks, comma, -⟩ := legible.comma
  rw [joined_cons, List.length_append, List.length_append, comma, List.length_cons]
  omega

/-- Written items are read up to the bracket. -/
theorem items_read {xs : List Value} {css : List (List Char)} {fuel : Nat} (legible : layout.Legible)
    (rest : List Char) (readable : List.Forall₂ Readable xs css) (some : css ≠ [])
    (enough : (joined layout.comma css).length < fuel) :
    ∃ ws, items fuel (joined layout.comma css ++ ']' :: rest) = .ok (ws, rest) ∧
      ((∀ x ∈ xs, Exact x) → ws = xs) := by
  obtain ⟨blanks, blank, joined_append⟩ := legible.joined_append
  induction readable generalizing fuel with
  | nil => exact absurd rfl some
  | @cons x cs xs css first others ih =>
    obtain ⟨fuel, rfl⟩ := Nat.exists_eq_succ_of_ne_zero (Nat.ne_of_gt (Nat.zero_lt_of_lt enough))
    cases others with
    | nil =>
      have size : cs.length ≤ fuel := Nat.le_of_lt_succ enough
      obtain ⟨w, read, back⟩ := first.read fuel (']' :: rest) size (ends_bracket rest)
      refine ⟨[w], ?_, fun exact => by rw [back (exact x List.mem_cons_self)]⟩
      change items (fuel + 1) (cs ++ ']' :: rest) = _
      rw [Json.items, read]
      rfl
    | @cons x' cs' xs' css' second others =>
      -- A comma ends the item, and the blanks after it are skipped: each round has its fuel.
      have size := legible.joined_length cs cs' css'
      obtain ⟨w, read, back⟩ := first.read fuel
        (',' :: (blanks ++ (joined layout.comma (cs' :: css') ++ ']' :: rest))) (by omega)
        (ends_comma _)
      obtain ⟨ws, later, backs⟩ := ih (List.cons_ne_nil _ _) (show _ < fuel by omega)
      have next : Leading (joined layout.comma (cs' :: css') ++ ']' :: rest) :=
        (Leading.joined second.leads _ _).append _
      refine ⟨w :: ws, ?_, fun exact => ?_⟩
      · rw [joined_append, Json.items, read]
        change (items fuel (skipBlank (blanks ++ (joined layout.comma (cs' :: css') ++ ']' :: rest))) >>=
          _) = _
        rw [next.skipBlanks blank, later]
        rfl
      · obtain ⟨exact_first, exact_others⟩ := List.forall_mem_cons.mp exact
        rw [back exact_first, backs exact_others]

theorem list_readable {xs : List Value} {css : List (List Char)} (legible : layout.Legible)
    (readable : List.Forall₂ Readable xs css) :
    Readable (.list xs) ('[' :: joined layout.comma css ++ [']']) := by
  apply Readable.of_next
  · exact ⟨'[', _, rfl, by decide⟩
  · intro fuel rest enough _
    have text : '[' :: joined layout.comma css ++ [']'] ++ rest =
        '[' :: (joined layout.comma css ++ ']' :: rest) := by
      rw [List.append_assoc]
      rfl
    rw [text, Json.value, if_neg (by decide), if_pos rfl]
    cases readable with
    | nil => exact ⟨.list [], rfl, fun _ => rfl⟩
    | @cons x cs xs css first others =>
      have leads : Leading (joined layout.comma (cs :: css) ++ ']' :: rest) :=
        (Leading.joined first.leads _ _).append _
      have size : (joined layout.comma (cs :: css)).length < fuel := by
        simp only [List.length_append, List.length_cons] at enough
        omega
      obtain ⟨ws, read, backs⟩ := items_read legible rest (.cons first others) (List.cons_ne_nil _ _) size
      refine ⟨.list ws, ?_, fun exact => ?_⟩
      · rw [leads.skipBlank]
        -- No item begins with the bracket that would end the list here.
        split
        · next bracket =>
          obtain ⟨c, tail, here, lead⟩ := leads
          rw [here] at bracket
          exact absurd (List.cons.inj bracket).1 lead.2.1
        · rw [read]
          rfl
      · cases exact with
        | list items => rw [backs items]

-- A member of a written object: the key of an entry, and what is read as its value.
def Member (layout : Layout) (e : Value × Value) (cs : List Char) : Prop :=
  ∃ gs text, e.1 = .ofGlyphs gs ∧ cs = quoted gs ++ layout.colon ++ text ∧ Readable e.2 text

theorem Member.leads {e : Value × Value} (member : Member layout e cs) : Leading cs := by
  obtain ⟨gs, text, -, rfl, -⟩ := member
  exact ⟨'"', _, rfl, by decide⟩

/-- A written member is read within the fuel for its value. -/
theorem Member.read {e : Value × Value} {fuel : Nat} (legible : layout.Legible)
    (member : Member layout e cs) (enough : cs.length ≤ fuel) (ends : Ends rest)
    (done : List (Value × Value)) :
    ∃ k w, Back e.1 k ∧ Back e.2 w ∧ members (fuel + 1) done (cs ++ rest) =
      match skipBlank rest with
      | '}' :: left => .ok (Value.insert k w done, left)
      | ',' :: left => members fuel (Value.insert k w done) (skipBlank left)
      | left => .error ⟨.noComma, left.length⟩ := by
  obtain ⟨gs, text, key, rfl, readable⟩ := member
  obtain ⟨blanks, colon, blank⟩ := legible.colon
  have size : text.length ≤ fuel := by
    simp only [List.length_append] at enough
    omega
  obtain ⟨w, read, back⟩ := readable.read fuel rest size ends
  refine ⟨.ofGlyphs (paired gs), w, key ▸ back_paired gs, back, ?_⟩
  have here : quoted gs ++ layout.colon ++ text ++ rest =
      '"' :: (gs.flatMap escapedGlyph ++ '"' :: ':' :: (blanks ++ (text ++ rest))) := by
    rw [List.append_assoc, List.append_assoc, quoted_append, colon, List.cons_append]
  rw [here, Json.members]
  dsimp only
  rw [string_quoted gs _ (quoted_size gs _)]
  change (value fuel (skipBlank (blanks ++ (text ++ rest))) >>= _) = _
  rw [(readable.leads.append rest).skipBlanks blank, read]
  rfl

/-- A key that no entry has is put at the end. -/
theorem insert_new {k v : Value} {done : List (Value × Value)} (key : k.isText)
    (new : k ∉ done.map (·.1)) : Value.insert k v done = done ++ [(k, v)] := by
  induction done with
  | nil => rfl
  | cons e done ih =>
    obtain ⟨k', v'⟩ := e
    rw [List.map_cons, List.mem_cons, not_or] at new
    have other : Value.same k k' = false := by
      apply Bool.eq_false_iff.mpr
      intro same
      exact new.1 ((Value.same_of_isText key).mp same).symm
    rw [Value.insert, other, if_neg Bool.false_ne_true, ih new.2]
    rfl

/-- Members whose keys are new are added to the entries that were read before. -/
theorem members_read {es : List (Value × Value)} {ms : List (List Char)} {fuel : Nat}
    (legible : layout.Legible) (rest : List Char) (readable : List.Forall₂ (Member layout) es ms)
    (some : ms ≠ []) (enough : (joined layout.comma ms).length < fuel) (done : List (Value × Value)) :
    ∃ fs, members fuel done (joined layout.comma ms ++ '}' :: rest) = .ok (fs, rest) ∧
      (((done ++ es).map (·.1)).Nodup → (∀ e ∈ es, Exact e.1 ∧ Exact e.2) → fs = done ++ es) := by
  obtain ⟨blanks, blank, joined_append⟩ := legible.joined_append
  induction readable generalizing fuel done with
  | nil => exact absurd rfl some
  | @cons e cs es ms first others ih =>
    obtain ⟨fuel, rfl⟩ := Nat.exists_eq_succ_of_ne_zero (Nat.ne_of_gt (Nat.zero_lt_of_lt enough))
    -- The entry that is read is the one that was written, at the end of those before it.
    have added : ∀ {k w}, Back e.1 k → Back e.2 w → ((done ++ e :: es).map (·.1)).Nodup →
        (∀ f ∈ e :: es, Exact f.1 ∧ Exact f.2) → Value.insert k w done = done ++ [e] := by
      intro k w same back distinct exact
      obtain ⟨gs, text, key, -, -⟩ := first
      have new : e.1 ∉ done.map (·.1) := by
        rw [List.map_append, List.map_cons] at distinct
        exact fun mem => (List.nodup_append.mp distinct).2.2 _ mem _ List.mem_cons_self rfl
      obtain ⟨name, value⟩ := exact e List.mem_cons_self
      rw [same name, back value]
      exact insert_new (key ▸ Value.isText_ofGlyphs gs) new
    cases others with
    | nil =>
      have size : cs.length ≤ fuel := Nat.le_of_lt_succ enough
      obtain ⟨k, w, same, back, read⟩ := first.read legible size (ends_brace rest) done
      exact ⟨_, read, fun distinct exact => added same back distinct exact⟩
    | @cons e' cs' es' ms' second others =>
      have size := legible.joined_length cs cs' ms'
      obtain ⟨k, w, same, back, read⟩ := first.read legible (show cs.length ≤ fuel by omega)
        (ends_comma (blanks ++ (joined layout.comma (cs' :: ms') ++ '}' :: rest))) done
      obtain ⟨fs, later, backs⟩ := ih (List.cons_ne_nil _ _) (show _ < fuel by omega)
        (Value.insert k w done)
      have next : Leading (joined layout.comma (cs' :: ms') ++ '}' :: rest) :=
        (Leading.joined second.leads _ _).append _
      refine ⟨fs, ?_, fun distinct exact => ?_⟩
      · rw [joined_append, read]
        change members fuel (Value.insert k w done)
          (skipBlank (blanks ++ (joined layout.comma (cs' :: ms') ++ '}' :: rest))) = _
        rw [next.skipBlanks blank, later]
      · rw [added same back distinct exact, List.append_assoc] at backs
        exact backs distinct (List.forall_mem_cons.mp exact).2

theorem map_readable {es : List (Value × Value)} {ms : List (List Char)} (legible : layout.Legible)
    (readable : List.Forall₂ (Member layout) es ms) :
    Readable (.map es) ('{' :: joined layout.comma ms ++ ['}']) := by
  apply Readable.of_next
  · exact ⟨'{', _, rfl, by decide⟩
  · intro fuel rest enough _
    have text : '{' :: joined layout.comma ms ++ ['}'] ++ rest =
        '{' :: (joined layout.comma ms ++ '}' :: rest) := by
      rw [List.append_assoc]
      rfl
    rw [text, Json.value, if_neg (by decide), if_neg (by decide), if_pos rfl]
    cases readable with
    | nil => exact ⟨.map [], rfl, fun _ => rfl⟩
    | @cons e cs es ms first others =>
      have leads : Leading (joined layout.comma (cs :: ms) ++ '}' :: rest) :=
        (Leading.joined first.leads _ _).append _
      have size : (joined layout.comma (cs :: ms)).length < fuel := by
        simp only [List.length_append, List.length_cons] at enough
        omega
      obtain ⟨fs, read, backs⟩ := members_read legible rest (.cons first others)
        (List.cons_ne_nil _ _) size []
      refine ⟨.map fs, ?_, fun exact => ?_⟩
      · rw [leads.skipBlank]
        -- No member begins with the brace that would end the object here.
        split
        · next brace =>
          obtain ⟨c, tail, here, lead⟩ := leads
          rw [here] at brace
          exact absurd (List.cons.inj brace).1 lead.2.2.1
        · rw [read]
          rfl
      · obtain ⟨keyed, entries⟩ := exact_map.mp exact
        rw [backs keyed.distinct entries, List.nil_append]

/-- The members that an object was written from, key by key, are those that its entries are read from. -/
theorem members_written {es : List (Value × Value)} {ws : List (Value × List Char)}
    {ms : List (List Char)} (keys : ∀ e ∈ es, e.1.isText)
    (readable : ∀ e ∈ es, ∀ cs, chars layout e.2 = .ok cs → Readable e.2 cs)
    (entries : List.Forall₂ (WrittenEntry layout) es ws)
    (made : List.Forall₂ (fun w m => memberText layout w = .ok m) ws ms) :
    List.Forall₂ (Member layout) es ms := by
  induction entries generalizing ms with
  | nil =>
    cases made
    exact .nil
  | @cons e w es ws entry _ ih =>
    obtain ⟨m, ms', first, rest, rfl⟩ := List.forall₂_cons_left_iff.mp made
    obtain ⟨key, keys'⟩ := List.forall_mem_cons.mp keys
    obtain ⟨value, values⟩ := List.forall_mem_cons.mp readable
    refine .cons ?_ (ih keys' values rest)
    obtain ⟨gs, name⟩ := Value.exists_ofGlyphs key
    rw [memberText, entry.1, name, keyText_ofGlyphs] at first
    cases first
    exact ⟨gs, w.2, name, rfl, value w.2 entry.2⟩

theorem plain_readable (legible : layout.Legible) (unsorted : layout.sorted = false) (plain : Plain v)
    (written : chars layout v = .ok cs) : Readable v cs := by
  -- One case for each type; the items of a list and the values of a map are readable by induction.
  induction plain generalizing cs with
  | null =>
    rw [chars] at written
    cases written
    exact word_readable (w := .null) (by simp [words]) fun _ => rfl
  | bool b =>
    rw [chars] at written
    cases written
    cases b with
    | true => exact word_readable (w := .bool true) (by simp [words]) fun _ => rfl
    | false => exact word_readable (w := .bool false) (by simp [words]) fun _ => rfl
  | int short =>
    rw [chars] at written
    cases written
    exact int_readable short
  | float x =>
    rw [chars] at written
    cases written
    exact float_readable x
  | text s =>
    rw [chars] at written
    cases written
    exact Value.ofGlyphs_ofText s ▸ text_readable (Text.Glyph.ofText s)
  | torn t =>
    rw [chars] at written
    cases written
    exact Value.ofGlyphs_torn t ▸ text_readable t.glyphs
  | @list xs items ih =>
    rw [chars] at written
    obtain ⟨css, all, written⟩ := bind_ok written
    cases written
    apply list_readable legible
    have readable : ∀ x ∈ xs, ∀ cs, chars layout x = .ok cs → Readable x cs := fun x mem _ => ih x mem
    have items := (List.forall₂_and_left _ _).mpr ⟨readable, charsOfAll_iff.mp all⟩
    exact items.imp fun x cs item => item.1 cs item.2
  | @map es keys values ih =>
    rw [chars_map] at written
    obtain ⟨ws, written, object⟩ := bind_ok written
    obtain ⟨ws', all, same⟩ := bind_ok written
    obtain ⟨ms, members, object⟩ := bind_ok object
    cases object
    -- Without sorting, the members stand in the order in which the map has them.
    rw [arranged, unsorted] at same
    cases same
    apply map_readable legible
    exact members_written keys (fun e mem _ => ih e mem) (charsOfEntries_iff.mp all)
      (mapM_forall₂ members)

/-- What was written for a plain value, with its keys as they stand, is read as a plain value again, and as the
same one if it is exact. -/
theorem Plain.reread (legible : layout.Legible) (unsorted : layout.sorted = false) (plain : Plain v) :
    ∃ cs w, chars layout v = .ok cs ∧ readChars cs = .ok w ∧ Plain w ∧ Back v w := by
  obtain ⟨cs, written⟩ := plain.printable layout
  have readable := plain_readable legible unsorted plain written
  -- The reader has more fuel than there are characters, and would refuse a mark in front of them.
  obtain ⟨w, read, back⟩ := readable.read (2 * cs.length + 2) [] (by omega) ends_nil
  have unmarked : cs.head? ≠ some '\uFEFF' := by
    obtain ⟨c, tail, rfl, lead⟩ := readable.leads
    exact fun same => lead.2.2.2 (Option.some.inj same)
  have reads : readChars cs = .ok w := by
    rw [List.append_nil] at read
    unfold readChars
    rw [if_neg unmarked, readable.leads.skipBlank]
    change (value (2 * cs.length + 2) cs >>= _) = _
    rw [read]
    rfl
  exact ⟨cs, w, written, reads, readChars_plain reads, back⟩

theorem reread (plain : Plain v) :
    ∃ cs w, chars spaced v = .ok cs ∧ readChars cs = .ok w ∧ Plain w ∧ Back v w :=
  plain.reread spaced_legible rfl

end Kitchen.Json

import Kitchen.Number.Integer
import Kitchen.Proofs.Pattern.Substitution
import Kitchen.Proofs.Reference.Outline
import Kitchen.Transform.Replace

/-!
References as a reader finds them from left to right. A text is split in one way only into characters and
references, and filling its references is going through these parts one by one. It is also what replacing
the matches of a regular expression comes to, with each match answered by its groups: the expression finds
the references that the reader finds, each with all of its backslashes and with two digits where it can.
-/
namespace Kitchen.Reference

open Text (Glyph)

variable {c : Capture} {cs tail rest more digits : List Glyph} {k m : Nat} {x : Glyph} {ts : List Token}

-- A number at the front of a text, with its digits and its value: two decimal digits where there are two, else
-- one.
inductive Numeral : List Glyph → List Glyph → Nat → List Glyph → Prop where
  | one {x : Glyph} {m : Nat} {rest : List Glyph} (value : x.digit? = some m)
      (last : ∀ y more, rest = y :: more → y.digit? = none) : Numeral (x :: rest) [x] m rest
  | two {x y : Glyph} {m n : Nat} {rest : List Glyph} (tens : x.digit? = some m)
      (units : y.digit? = some n) : Numeral (x :: y :: rest) [x, y] (10 * m + n) rest

-- A reference at the front of a text: so many backslashes, a dollar sign, an R and a number.
def Opens (cs : List Glyph) (k : Nat) (digits : List Glyph) (m : Nat) (rest : List Glyph) : Prop :=
  ∃ tail, cs = slashes k ++ .char '$' :: .char 'R' :: tail ∧ Numeral tail digits m rest

-- What a reader finds in a text from left to right: a reference where one stands at the front of what is left,
-- and else a character.
inductive Reads : List Glyph → List Token → Prop where
  | nil : Reads [] []
  | reference {cs rest digits : List Glyph} {k m : Nat} {ts : List Token} (opens : Opens cs k digits m rest)
      (reads : Reads rest ts) : Reads cs (.reference k digits m :: ts)
  | glyph {x : Glyph} {rest : List Glyph} {ts : List Token}
      (bare : ∀ k digits m more, ¬Opens (x :: rest) k digits m more) (reads : Reads rest ts) :
      Reads (x :: rest) (.glyph x :: ts)

theorem numeral?_iff : numeral? cs = some (digits, m, rest) ↔ Numeral cs digits m rest := by
  constructor
  · intro num
    cases cs with
    | nil => cases num
    | cons x tail =>
      obtain ⟨v, value, num⟩ := Option.map_eq_some_iff.mp num
      cases tail with
      | nil =>
        cases num
        exact .one value fun y more eq => by cases eq
      | cons y more =>
        cases units : y.digit? with
        | none =>
          simp only [units] at num
          cases num
          refine .one value fun z rest eq => ?_
          cases eq
          exact units
        | some n =>
          simp only [units] at num
          cases num
          exact .two value units
  · intro num
    cases num with
    | one value last => exact numeral?_one value (numeral?_eq_none.mpr last)
    | two tens units => simp [numeral?, tens, units]

theorem Numeral.unique {ds ds' : List Glyph} {n n' : Nat} {r r' : List Glyph} (num : Numeral cs ds n r)
    (num' : Numeral cs ds' n' r') : ds = ds' ∧ n = n' ∧ r = r' := by
  have same := (numeral?_iff.mpr num).symm.trans (numeral?_iff.mpr num')
  simpa using same

/-- The number of backslashes in front of a dollar sign can be read off. -/
theorem slashes_dollar {j k : Nat} {u w : List Glyph}
    (eq : slashes j ++ .char '$' :: u = slashes k ++ .char '$' :: w) :
    j = k ∧ u = w := by
  induction j generalizing k with
  | zero =>
    cases k with
    | zero => exact ⟨rfl, by simpa [slashes] using eq⟩
    | succ k => simp [slashes, List.replicate_succ] at eq
  | succ j ih =>
    cases k with
    | zero => simp [slashes, List.replicate_succ] at eq
    | succ k =>
      have eq : slashes j ++ .char '$' :: u = slashes k ++ .char '$' :: w := by
        simpa [slashes, List.replicate_succ] using eq
      obtain ⟨rfl, rfl⟩ := ih eq
      exact ⟨rfl, rfl⟩

theorem Opens.unique {k' m' : Nat} {digits' rest' : List Glyph} (opens : Opens cs k digits m rest)
    (opens' : Opens cs k' digits' m' rest') : k = k' ∧ digits = digits' ∧ m = m' ∧ rest = rest' := by
  obtain ⟨tail, rfl, num⟩ := opens
  obtain ⟨tail', eq, num'⟩ := opens'
  obtain ⟨rfl, same⟩ := slashes_dollar eq
  obtain rfl : tail = tail' := List.tail_eq_of_cons_eq same
  exact ⟨rfl, num.unique num'⟩

/-- A text is read in one way only. -/
theorem Reads.unique {us : List Token} (reads : Reads cs ts) (reads' : Reads cs us) : us = ts := by
  induction reads generalizing us with
  | nil =>
    cases reads' with
    | nil => rfl
    | reference opens _ =>
      obtain ⟨tail, eq, -⟩ := opens
      simp at eq
  | reference opens _ ih =>
    cases reads' with
    | nil =>
      obtain ⟨tail, eq, -⟩ := opens
      simp at eq
    | reference opens' reads' =>
      obtain ⟨rfl, rfl, rfl, rfl⟩ := opens.unique opens'
      rw [ih reads']
    | glyph bare _ => exact absurd opens (bare _ _ _ _)
  | glyph bare _ ih =>
    cases reads' with
    | reference opens _ => exact absurd opens (bare _ _ _ _)
    | glyph _ reads' => rw [ih reads']

-- A part as the text spells it.
def Token.spelled : Token → List Glyph
  | .glyph x => [x]
  | .reference k digits _ => slashes k ++ .char '$' :: .char 'R' :: digits

theorem Numeral.spelled (num : Numeral cs digits m rest) : digits ++ rest = cs := by
  cases num <;> rfl

theorem Reads.spelled (reads : Reads cs ts) : ts.flatMap Token.spelled = cs := by
  induction reads with
  | nil => rfl
  | reference opens _ ih =>
    obtain ⟨tail, rfl, num⟩ := opens
    rw [List.flatMap_cons, ih, ← num.spelled]
    simp [Token.spelled]
  | glyph _ _ ih =>
    rw [List.flatMap_cons, ih]
    rfl

/-- All backslashes in front of a reference belong to it. -/
theorem Reads.maximal {before after : List Token}
    (reads : Reads cs (before ++ .glyph (.char '\\') :: .reference k digits m :: after)) : False := by
  induction before generalizing cs with
  | nil =>
    cases reads with
    | glyph bare reads =>
      cases reads with
      | reference opens _ =>
        obtain ⟨tail, rfl, num⟩ := opens
        exact bare (k + 1) digits m _ ⟨tail, rfl, num⟩
  | cons t before ih =>
    cases reads with
    | reference _ reads => exact ih reads
    | glyph _ reads => exact ih reads

/-- Behind backslashes no reference opens that does not open behind all of them. -/
theorem not_opens_slashes {j : Nat} (noslash : ∀ u, cs ≠ .char '\\' :: u)
    (bare : ∀ tail, cs = .char '$' :: .char 'R' :: tail → numeral? tail = none) :
    ¬Opens (slashes j ++ cs) k digits m more := by
  rintro ⟨tail, eq, num⟩
  induction j generalizing k with
  | zero =>
    cases k with
    | zero =>
      have none := bare tail eq
      rw [numeral?_iff.mpr num] at none
      cases none
    | succ k => exact noslash _ eq
  | succ j ih =>
    cases k with
    | zero => simp [slashes, List.replicate_succ] at eq
    | succ k => exact ih (List.tail_eq_of_cons_eq eq)

/-- Backslashes that lead to no reference are characters. -/
theorem Reads.inert (noslash : ∀ u, cs ≠ .char '\\' :: u)
    (bare : ∀ tail, cs = .char '$' :: .char 'R' :: tail → numeral? tail = none) (reads : Reads cs ts) (k : Nat) :
    Reads (slashes k ++ cs) ((slashes k).map .glyph ++ ts) := by
  induction k with
  | zero => exact reads
  | succ k ih =>
    refine .glyph (fun _ _ _ _ => ?_) ih
    show ¬Opens (slashes (k + 1) ++ cs) _ _ _ _
    exact not_opens_slashes noslash bare

theorem slashes_succ_append (k : Nat) (w : List Glyph) : slashes (k + 1) ++ w = slashes k ++ .char '\\' :: w := by
  simp [slashes, List.replicate_succ']

/-- The parts of a text are what a reader finds. -/
theorem reads_tokens (k : Nat) (cs : List Glyph) : Reads (slashes k ++ cs) (tokens k cs) := by
  fun_induction tokens k cs with
  | case1 k =>
    have all : Reads (slashes k ++ []) ((slashes k).map .glyph ++ []) :=
      Reads.inert (by simp) (by simp) .nil k
    rwa [List.append_nil ((slashes k).map _)] at all
  | case2 k rest ih =>
    rwa [slashes_succ_append] at ih
  | case3 k rest num ih =>
    -- neither the dollar sign nor the R after it begins a reference
    have letter : Reads (.char 'R' :: rest) (.glyph (.char 'R') :: tokens 0 rest) :=
      .glyph (fun _ _ _ _ => not_opens_slashes (j := 0) (by simp) (by simp)) ih
    have dollar : Reads (.char '$' :: .char 'R' :: rest)
        (.glyph (.char '$') :: .glyph (.char 'R') :: tokens 0 rest) := by
      refine .glyph (fun _ _ _ _ => not_opens_slashes (j := 0) (by simp) ?_) letter
      rintro tail eq
      cases eq
      exact num
    have all := Reads.inert (by simp) (fun tail eq => by cases eq; exact num) dollar k
    simpa using all
  | case4 k rest digits m more num _ ih =>
    exact .reference ⟨rest, rfl, numeral?_iff.mp num⟩ ih
  | case5 k x rest noslash noref ih =>
    have plain : ∀ u, x :: rest ≠ .char '\\' :: u := by
      rintro u eq
      cases eq
      exact noslash rfl
    have bare : ∀ tail, x :: rest = .char '$' :: .char 'R' :: tail → numeral? tail = none := by
      rintro tail eq
      cases eq
      exact absurd rfl (noref tail rfl)
    have first : Reads (x :: rest) (.glyph x :: tokens 0 rest) :=
      .glyph (fun _ _ _ _ => not_opens_slashes (j := 0) plain bare) ih
    have all := Reads.inert plain bare first k
    simpa using all

-- What becomes of a part. A reference to a captured text loses a backslash if it has an odd number of them, and
-- else gives way to the text behind its backslashes. All other parts stay as they are.
def Capture.becomes (c : Capture) (t : Token) : List Glyph :=
  match t with
  | .glyph x => [x]
  | .reference k _ m =>
    if here : c.base ≤ m ∧ m < c.base + c.texts.length then
      if k % 2 = 1 then t.spelled.tail
      else slashes k ++ c.texts[m - c.base]
    else t.spelled

theorem Capture.fillToken_becomes (c : Capture) (t : Token) : c.fillToken t = c.becomes t := by
  cases t with
  | glyph x => rfl
  | reference k digits m =>
    simp only [fillToken, fill, becomes]
    by_cases here : c.base ≤ m ∧ m < c.base + c.texts.length
    · have within : m - c.base < c.texts.length := by omega
      have text : c.text? m = some c.texts[m - c.base] := by
        rw [text?, if_neg (by omega), List.getElem?_eq_getElem within]
      rw [text, dif_pos here]
      dsimp only
      split
      · next odd =>
        obtain ⟨j, rfl⟩ : ∃ j, k = j + 1 := ⟨k - 1, by omega⟩
        rfl
      · rfl
    · have text : c.text? m = none := by
        rw [text?]
        split
        · rfl
        · exact List.getElem?_eq_none (by omega)
      rw [text, dif_neg here]
      rfl

-- A run of backslashes, a dollar sign, an R and one digit or two.
def expression : String := "(\\\\*)\\$R(\\d\x7b1,2\x7d)"

def slash : Pattern.Test := .literal (Glyph.char '\\').code false .exact

def decimal : Pattern.Test := .set [.category .digit false false] false .exact

def mark : Pattern.Node :=
  .cat (.one (.literal (Glyph.char '$').code false .exact))
    (.cat (.one (.literal (Glyph.char 'R').code false .exact))
      (.capture 2 (.repeated .greedy 1 (some 2) (.one decimal))))

def pattern : Pattern :=
  ⟨.cat (.capture 1 (.repeated .greedy 0 none (.one slash))) mark, 2⟩

theorem pattern_read : (Pattern.read (.ofFlags false false) (Glyph.ofText expression)).toOption = some pattern := by
  decide +kernel

-- What is put in for a match, by the backslashes and the digits that its groups hold. The number counts from
-- one here, as the last captured text that can be referred to does.
def Capture.answer (c : Capture) (f : Pattern.Found) : List Glyph :=
  match f.held with
  | [some slashes, some number] =>
    match (Glyph.chars? number).map Number.readInteger with
    | some (.ok n) =>
      let index := n + 1
      if index ≤ c.base ∨ c.base + c.texts.length < index then f.whole
      else if slashes.length % 2 ≠ 0 then f.whole.drop 1
      else slashes ++ (c.texts[(index - c.base - 1).toNat]?).getD []
    | _ => f.whole
  | _ => f.whole

open Pattern (Spot Node Follow Found)

theorem decimal_accepts (y : Glyph) : decimal.accepts y = y.digit?.isSome := by
  simp only [decimal, Pattern.Test.accepts, List.any_cons, List.any_nil, Pattern.Item.holds,
    Pattern.Category.holds, Pattern.Fold.lower, Glyph.ofCode_code]
  cases y <;> simp [Glyph.meets, Glyph.digit?, Text.isDigit]

variable {s e : Spot} {follow : Follow}

/-- Two digits are taken where there are two. -/
theorem run_number (num : Numeral s.after digits m more)
    (leads : follow (s.past digits more) = some e) :
    (Node.repeated .greedy 1 (some 2) (.one decimal)).run s follow = some e := by
  have after : s.after = digits ++ more := num.spelled.symm
  generalize s.after = cs at num
  cases num with
  | @one x _ _ value last =>
    have ends : Pattern.Ends decimal (some 2) [x] more := by
      refine .inr ⟨by simp, fun y rest eq => ?_⟩
      simp [decimal_accepts, last y rest eq]
    apply Pattern.run_greedy after _ ends (by simp) leads
    simp [decimal_accepts, value]
  | two tens units =>
    apply Pattern.run_greedy after _ (.inl rfl) (by simp) leads
    simp [decimal_accepts, tens, units]

theorem run_number_none (num : numeral? s.after = none) :
    (Node.repeated .greedy 1 (some 2) (.one decimal)).run s follow = none := by
  have after : s.after = [] ++ s.after := rfl
  have ends : Pattern.Ends decimal (some 2) [] s.after := by
    refine .inr ⟨by simp, fun y more eq => ?_⟩
    simp [decimal_accepts, numeral?_eq_none.mp num y more eq]
  apply Pattern.run_greedy_none after (by simp) ends
  intro ys zs eq long
  obtain ⟨rfl, -⟩ := List.nil_eq_append_iff.mp eq
  simp at long

theorem run_mark (after : s.after = .char '$' :: .char 'R' :: tail) (num : Numeral tail digits m more) :
    mark.run s some = some ((s.past (.char '$' :: .char 'R' :: digits) more).hold 2 digits) := by
  let letter := s.past [.char '$'] (.char 'R' :: tail)
  let number := letter.past [.char 'R'] tail
  have digits' : number.upTo (number.past digits more) = digits :=
    Spot.upTo_past num.spelled.symm rfl
  have whole : number.past digits more = s.past (.char '$' :: .char 'R' :: digits) more := by
    simp only [number, letter, Spot.past_past]
    rfl
  unfold mark
  rw [Node.run, Pattern.run_one after (by decide), Node.run, Pattern.run_one rfl (by decide), Node.run]
  apply run_number num
  show some ((number.past digits more).hold 2 (number.upTo (number.past digits more))) = _
  rw [digits', whole]

theorem run_mark_none (bare : ∀ tail, s.after = .char '$' :: .char 'R' :: tail → numeral? tail = none) :
    mark.run s some = none := by
  unfold mark
  rw [Node.run]
  by_cases dollar : ∃ u, s.after = .char '$' :: u
  · obtain ⟨u, after⟩ := dollar
    rw [Pattern.run_one after (by decide), Node.run]
    by_cases letter : ∃ tail, u = .char 'R' :: tail
    · obtain ⟨tail, rfl⟩ := letter
      rw [Pattern.run_one rfl (by decide), Node.run]
      exact run_number_none (bare tail after)
    · apply Pattern.run_one_none
      intro y tail eq
      rw [Pattern.Test.literal_accepts, decide_eq_false_iff_not]
      rintro rfl
      exact letter ⟨tail, eq⟩
  · apply Pattern.run_one_none
    intro y u eq
    rw [Pattern.Test.literal_accepts, decide_eq_false_iff_not]
    rintro rfl
    exact dollar ⟨u, eq⟩

/-- The expression takes a reference with all its backslashes. -/
theorem matchAt_opens (opens : Opens s.after k digits m rest) (free : s.held = [none, none]) :
    pattern.matchAt false s =
      some { s.past (slashes k ++ .char '$' :: .char 'R' :: digits) rest with
        held := [some (slashes k), some digits] } := by
  obtain ⟨tail, after, num⟩ := opens
  have accepted : ∀ y ∈ slashes k, slash.accepts y := by
    intro y mem
    rw [slash, Pattern.Test.literal_accepts, decide_eq_true_iff]
    exact List.eq_of_mem_replicate mem
  have ends : Pattern.Ends slash none (slashes k) (.char '$' :: .char 'R' :: tail) := by
    refine .inr ⟨by simp, fun y more eq => ?_⟩
    cases eq
    decide
  have taken : s.upTo (s.past (slashes k) (.char '$' :: .char 'R' :: tail)) = slashes k := Spot.upTo_past after rfl
  simp only [Pattern.matchAt, pattern, Bool.false_and, Bool.false_eq_true, if_false]
  rw [Node.run, Node.run]
  apply Pattern.run_greedy after accepted ends (Nat.zero_le _)
  rw [taken]
  have marked : mark.run ((s.past (slashes k) (.char '$' :: .char 'R' :: tail)).hold 1 (slashes k)) some = _ :=
    run_mark rfl num
  rw [marked]
  simp [Spot.past, Spot.hold, free, Nat.add_assoc]

/-- Every text is backslashes and what follows all of them. -/
theorem slashes_split (cs : List Glyph) : ∃ k rest, cs = slashes k ++ rest ∧ ∀ u, rest ≠ .char '\\' :: u := by
  induction cs with
  | nil => exact ⟨0, [], rfl, by simp⟩
  | cons x cs ih =>
    by_cases slash : x = .char '\\'
    · obtain ⟨k, rest, rfl, noslash⟩ := ih
      exact ⟨k + 1, rest, by rw [slash]; rfl, noslash⟩
    · refine ⟨0, x :: cs, rfl, ?_⟩
      rintro u eq
      cases eq
      exact slash rfl

/-- Where no reference opens, the expression does not match: what follows fewer backslashes is one. -/
theorem matchAt_bare (bare : ∀ k digits m rest, ¬Opens s.after k digits m rest) :
    pattern.matchAt false s = none := by
  obtain ⟨k, rest, after, noslash⟩ := slashes_split s.after
  have accepted : ∀ y ∈ slashes k, slash.accepts y := by
    intro y mem
    rw [slash, Pattern.Test.literal_accepts, decide_eq_true_iff]
    exact List.eq_of_mem_replicate mem
  have ends : Pattern.Ends slash none (slashes k) rest := by
    refine .inr ⟨by simp, fun y more eq => ?_⟩
    rw [slash, Pattern.Test.literal_accepts, decide_eq_false_iff_not]
    rintro rfl
    exact noslash more eq
  simp only [Pattern.matchAt, pattern, Bool.false_and, Bool.false_eq_true, if_false]
  rw [Node.run, Node.run]
  apply Pattern.run_greedy_none after accepted ends
  intro ys zs eq _
  apply run_mark_none
  intro tail begins
  have begins : zs ++ rest = .char '$' :: .char 'R' :: tail := begins
  cases zs with
  | nil =>
    rw [Option.eq_none_iff_forall_ne_some]
    rintro ⟨digits, m, more⟩ num
    apply bare k digits m more
    exact ⟨tail, by rw [after]; exact congrArg _ begins, numeral?_iff.mp num⟩
  | cons z zs =>
    have slash : z = .char '\\' := by
      apply List.eq_of_mem_replicate (n := k)
      rw [← slashes, eq]
      simp
    rw [slash] at begins
    cases begins

/-- Digits are neither signs nor the line between digits. -/
theorem digit_apart {a : Char} (value : Text.digit? a = some m) : a ≠ '-' ∧ a ≠ '+' ∧ a ≠ '_' := by
  refine ⟨?_, ?_, ?_⟩
  · rintro rfl
    have none : Text.digit? '-' = none := by decide
    exact absurd (none.symm.trans value) (by simp)
  · rintro rfl
    have none : Text.digit? '+' = none := by decide
    exact absurd (none.symm.trans value) (by simp)
  · rintro rfl
    have none : Text.digit? '_' = none := by decide
    exact absurd (none.symm.trans value) (by simp)

theorem splitSign_digit {a : Char} {as : List Char} (value : Text.digit? a = some m) :
    Number.splitSign (a :: as) = (false, a :: as) := by
  obtain ⟨minus, plus, -⟩ := digit_apart value
  rw [Number.splitSign]
  · rintro rest eq
    cases eq
    exact minus rfl
  · rintro rest eq
    cases eq
    exact plus rfl

/-- Only characters are digits. -/
theorem digit?_char (value : x.digit? = some m) : ∃ a, x = .char a ∧ Text.digit? a = some m := by
  cases x with
  | char a => exact ⟨a, rfl, value⟩
  | half h => cases value

theorem Numeral.readInteger (num : Numeral cs digits m rest) :
    (Glyph.chars? digits).map Number.readInteger = some (.ok m) := by
  cases num with
  | one value last =>
    obtain ⟨a, rfl, digit⟩ := digit?_char value
    have chars : Glyph.chars? [.char a] = some [a] := rfl
    simp [chars, Number.readInteger, splitSign_digit digit, Number.digitRun?, digit, Number.digitLimit,
      Number.signed, Number.ofDigits]
  | two tens units =>
    obtain ⟨a, rfl, ten⟩ := digit?_char tens
    obtain ⟨b, rfl, unit⟩ := digit?_char units
    obtain ⟨-, -, line⟩ := digit_apart unit
    have chars : Glyph.chars? [.char a, .char b] = some [a, b] := rfl
    simp [chars, Number.readInteger, splitSign_digit ten, Number.digitRun?, ten, unit, line,
      Number.digitLimit, Number.signed, Number.ofDigits]

/-- The answer to a match is what becomes of the reference. -/
theorem Capture.answer_becomes (c : Capture) (num : Numeral cs digits m rest) :
    c.answer ⟨slashes k ++ .char '$' :: .char 'R' :: digits, [some (slashes k), some digits]⟩ =
      c.becomes (.reference k digits m) := by
  have long : (slashes k).length = k := List.length_replicate
  simp only [answer, num.readInteger, becomes, Token.spelled, long]
  by_cases here : c.base ≤ m ∧ m < c.base + c.texts.length
  · have place : ((m : Int) + 1 - c.base - 1).toNat = m - c.base := by omega
    have within : m - c.base < c.texts.length := by omega
    rw [if_neg (by omega), dif_pos here, place, List.getElem?_eq_getElem within, Option.getD_some,
      List.drop_one]
    by_cases odd : k % 2 = 1
    · rw [if_pos (by omega), if_pos odd]
    · rw [if_neg (by omega), if_neg odd]
  · rw [if_pos (by omega), dif_neg here]

/-- Replacing goes through the parts that a reader finds. -/
theorem Reads.substitute (reads : Reads cs ts) (c : Capture) {fuel : Nat} (after : s.after = cs)
    (free : s.held = [none, none]) (enough : cs.length < fuel) :
    Pattern.substitute.go pattern c.answer fuel false s = ts.flatMap c.becomes := by
  obtain ⟨fuel, rfl⟩ : ∃ n, fuel = n + 1 := ⟨fuel - 1, by omega⟩
  induction reads generalizing s fuel with
  | nil =>
    have miss : pattern.matchAt false s = none := by
      apply matchAt_bare
      rintro k digits m rest ⟨tail, eq, -⟩
      simp [after] at eq
    rw [Pattern.substitute_end after miss, List.flatMap_nil]
  | @glyph x rest ts bare _ ih =>
    have miss : pattern.matchAt false s = none := by
      apply matchAt_bare
      rw [after]
      exact bare
    have onward : Pattern.substitute.go pattern c.answer (fuel + 1) false (s.past [x] rest) =
        ts.flatMap c.becomes := by
      have free' : (s.past [x] rest).held = [none, none] := free
      apply ih rfl free'
      simp only [List.length_cons] at enough
      omega
    rw [Pattern.substitute_onward after miss, onward, List.flatMap_cons]
    rfl
  | @reference cs rest digits k m ts opens _ ih =>
    have whole : s.after = (slashes k ++ .char '$' :: .char 'R' :: digits) ++ rest := by
      obtain ⟨tail, eq, num⟩ := opens
      rw [after, eq, ← num.spelled]
      simp
    have hit := matchAt_opens (after.symm ▸ opens) free
    have taken : s.upTo { s.past (slashes k ++ .char '$' :: .char 'R' :: digits) rest with
        held := [some (slashes k), some digits] } = slashes k ++ .char '$' :: .char 'R' :: digits :=
      Spot.upTo_past whole rfl
    have moved : s.place + (slashes k ++ .char '$' :: .char 'R' :: digits).length ≠ s.place := by
      simp
    have shorter : rest.length + 2 ≤ cs.length := by
      rw [← after, whole]
      simp
      omega
    obtain ⟨n, rfl⟩ : ∃ n, fuel = n + 1 := ⟨fuel - 1, by omega⟩
    obtain ⟨tail, -, num⟩ := opens
    rw [Pattern.substitute_here hit, taken, c.answer_becomes num, List.flatMap_cons]
    simp only [Spot.past_place, beq_eq_false_iff_ne.mpr moved]
    congr 1
    exact ih rfl rfl n (by omega)

/-- Filling the references in a text goes through the only way to read it from left to right, keeps what
is no reference to a captured text, drops a backslash of the references with an odd number of them and
puts the captured texts in for the others. It is replacing the matches of the expression. -/
theorem Capture.resolve_scans (c : Capture) (gs : List Glyph) :
    ∃ ts, Reads gs ts ∧ (∀ us, Reads gs us → us = ts) ∧
      ts.flatMap Token.spelled = gs ∧
      (∀ before k digits m after,
        ts ≠ before ++ .glyph (.char '\\') :: .reference k digits m :: after) ∧
      c.resolveText gs = ts.flatMap c.becomes ∧
      ∃ p, (Pattern.read (.ofFlags false false) (Glyph.ofText expression)).toOption = some p ∧
        c.resolveText gs = p.substitute c.answer gs := by
  have reads : Reads gs (tokens 0 gs) := reads_tokens 0 gs
  have filled : c.resolveText gs = (tokens 0 gs).flatMap c.becomes := by
    rw [resolveText, c.resolve_eq]
    exact List.flatMap_congr fun t _ => c.fillToken_becomes t
  have replaced : pattern.substitute c.answer gs = (tokens 0 gs).flatMap c.becomes := by
    apply reads.substitute c rfl rfl
    omega
  refine ⟨tokens 0 gs, reads, fun us reads' => reads.unique reads', reads.spelled, ?_, filled, pattern,
    pattern_read, filled.trans replaced.symm⟩
  intro before k digits m after eq
  rw [eq] at reads
  exact reads.maximal

example : (⟨0, [Glyph.ofText "ab"]⟩ : Capture).resolveText (Glyph.ofText "\\$R0 \\\\$R00 $R1") =
    Glyph.ofText "$R0 \\\\ab $R1" := by
  decide +kernel

end Kitchen.Reference

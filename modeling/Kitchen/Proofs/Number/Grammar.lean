import Kitchen.Number.Reading
import Mathlib.Data.List.DropRight

namespace Kitchen

/-- There is nothing left to strip from a text that was stripped. -/
theorem Text.strip_strip (cs : List Char) : Text.strip (Text.strip cs) = Text.strip cs := by
  have kept : (Text.strip cs).dropWhile Text.isBlank = Text.strip cs := by
    -- What is stripped begins as the text without the blanks in front does.
    have front : Text.strip cs <+: cs.dropWhile Text.isBlank := by
      apply List.reverse_suffix.mp
      unfold Text.strip
      rw [List.reverse_reverse]
      exact List.dropWhile_suffix Text.isBlank
    obtain ⟨tail, whole⟩ := front
    cases first : Text.strip cs with
    | nil => rfl
    | cons c rest =>
      have head : cs.dropWhile Text.isBlank = c :: (rest ++ tail) := by
        rw [← whole, first, List.cons_append]
      have other : ¬ Text.isBlank c = true := by
        have filled : cs.dropWhile Text.isBlank ≠ [] := by
          rw [head]
          exact List.cons_ne_nil _ _
        have stopped := List.head_dropWhile_not Text.isBlank filled
        simp only [head, List.head_cons] at stopped
        simp [stopped]
      exact List.dropWhile_cons_of_neg other
  calc Text.strip (Text.strip cs)
      = (((Text.strip cs).dropWhile Text.isBlank).reverse.dropWhile Text.isBlank).reverse := rfl
    _ = ((Text.strip cs).reverse.dropWhile Text.isBlank).reverse := by rw [kept]
    _ = Text.strip cs := by
      unfold Text.strip
      rw [List.reverse_reverse, List.dropWhile_idempotent]

namespace Number

inductive Run : List Char → Prop where
  | one {c : Char} (digit : Text.isDigit c) : Run [c]
  | next {c : Char} {cs : List Char} (digit : Text.isDigit c) (run : Run cs) : Run (c :: cs)
  | spaced {c : Char} {cs : List Char} (digit : Text.isDigit c) (run : Run cs) : Run (c :: '_' :: cs)

def Sign (cs : List Char) : Prop :=
  cs = [] ∨ cs = ['-'] ∨ cs = ['+']

inductive Mantissa : List Char → Prop where
  | whole {w : List Char} (whole : Run w) : Mantissa w
  | point {w f : List Char} (whole : w = [] ∨ Run w) (fraction : f = [] ∨ Run f) (some : w ≠ [] ∨ f ≠ []) :
      Mantissa (w ++ '.' :: f)

inductive Scale : List Char → Prop where
  | none : Scale []
  | run {letter : Char} {sign ds : List Char} (power : letter = 'e' ∨ letter = 'E') (signed : Sign sign)
      (run : Run ds) : Scale (letter :: (sign ++ ds))

inductive Unsigned : List Char → Prop where
  | word {cs : List Char} (word : String.ofList (cs.map Char.toLower) ∈ ["inf", "infinity", "nan"]) : Unsigned cs
  | decimal {m e : List Char} (mantissa : Mantissa m) (scale : Scale e) : Unsigned (m ++ e)

def Spelling (cs : List Char) : Prop :=
  ∃ sign body, cs = sign ++ body ∧ Sign sign ∧ Unsigned body

variable {c : Char} {cs ds rest : List Char}

def Halts (rest : List Char) : Prop :=
  ∀ c ∈ rest.head?, Text.isDigit c = false ∧ c ≠ '_'

theorem halts_nil : Halts [] :=
  fun _ here => by cases here

theorem Run.cons (run : Run ds) : ∃ c tail, ds = c :: tail ∧ Text.isDigit c := by
  cases run with
  | one digit => exact ⟨_, _, rfl, digit⟩
  | next digit => exact ⟨_, _, rfl, digit⟩
  | spaced digit => exact ⟨_, _, rfl, digit⟩

theorem not_underscore (digit : Text.isDigit c) : c ≠ '_' := by
  rintro rfl
  exact absurd digit (by decide)

theorem takeDigits_none (stop : ∀ c ∈ rest.head?, Text.isDigit c = false) : takeDigits rest = ([], rest) := by
  have digit : ∀ c tail, rest = c :: tail → Text.digit? c = none := by
    rintro c tail rfl
    have other := stop c rfl
    exact Option.not_isSome_iff_eq_none.mp (by simpa [Text.isDigit] using other)
  unfold takeDigits
  split
  · rfl
  · rw [digit _ _ rfl]
  · rw [digit _ _ rfl]

theorem Halts.takeDigits (halts : Halts rest) : takeDigits rest = ([], rest) :=
  takeDigits_none fun c here => (halts c here).1

/-- After a digit, the digits go on in the text behind it. -/
theorem takeDigits_next (digit : Text.isDigit c) (other : ∀ d ∈ cs.head?, d ≠ '_') :
    ∃ d, takeDigits (c :: cs) = (d :: (takeDigits cs).1, (takeDigits cs).2) := by
  obtain ⟨d, value⟩ := Option.isSome_iff_exists.mp digit
  refine ⟨d, ?_⟩
  cases cs with
  | nil =>
    change takeDigits [c] = ([d], [])
    rw [takeDigits, value]
  | cons next rest =>
    have apart : ¬ (next = '_' ∧ rest.head?.any Text.isDigit) := fun both => other next rfl both.1
    rw [takeDigits.eq_def]
    dsimp only
    rw [value, if_neg apart]

/-- They go on behind an underscore as well, if one follows there. -/
theorem takeDigits_spaced (digit : Text.isDigit c) (more : ∃ d tail, cs = d :: tail ∧ Text.isDigit d) :
    ∃ d, takeDigits (c :: '_' :: cs) = (d :: (takeDigits cs).1, (takeDigits cs).2) := by
  obtain ⟨d, value⟩ := Option.isSome_iff_exists.mp digit
  obtain ⟨d', tail, rfl, digit'⟩ := more
  refine ⟨d, ?_⟩
  have both : '_' = '_' ∧ (d' :: tail).head?.any Text.isDigit := ⟨rfl, digit'⟩
  rw [takeDigits.eq_def]
  dsimp only
  rw [value, if_pos both]

/-- Digits are taken to the end of their run. -/
theorem Run.takeDigits (run : Run ds) (halts : Halts rest) :
    ∃ d values, takeDigits (ds ++ rest) = (d :: values, rest) := by
  induction run with
  | @one c digit =>
    obtain ⟨d, taken⟩ := takeDigits_next digit fun e here => (halts e here).2
    exact ⟨d, [], by rw [List.singleton_append, taken, halts.takeDigits]⟩
  | @next c cs digit run ih =>
    obtain ⟨e, values, later⟩ := ih
    obtain ⟨e', tail, here, digit'⟩ := run.cons
    have other : ∀ x ∈ (cs ++ rest).head?, x ≠ '_' := by
      intro x first
      rw [here] at first
      obtain rfl := Option.some.inj first
      exact not_underscore digit'
    obtain ⟨d, taken⟩ := takeDigits_next digit other
    exact ⟨d, e :: values, by rw [List.cons_append, taken, later]⟩
  | @spaced c cs digit run ih =>
    obtain ⟨e, values, later⟩ := ih
    obtain ⟨e', tail, here, digit'⟩ := run.cons
    obtain ⟨d, taken⟩ := @takeDigits_spaced c (cs ++ rest) digit ⟨e', tail ++ rest, by rw [here]; rfl, digit'⟩
    exact ⟨d, e :: values, by rw [List.cons_append, List.cons_append, taken, later]⟩

theorem takeDigits_filled (digit : Text.isDigit c) (cs : List Char) : (takeDigits (c :: cs)).1 ≠ [] := by
  obtain ⟨d, value⟩ := Option.isSome_iff_exists.mp digit
  rw [takeDigits.eq_def]
  cases cs with
  | nil =>
    dsimp only
    rw [value]
    exact List.cons_ne_nil _ _
  | cons next rest =>
    dsimp only
    rw [value]
    exact List.cons_ne_nil _ _

/-- What is taken is a run, or nothing. -/
theorem takeDigits_run (cs : List Char) : ∃ ds, cs = ds ++ (takeDigits cs).2 ∧ (ds = [] ∨ Run ds) ∧
    ((takeDigits cs).1 = [] ↔ ds = []) := by
  have nothing : ∀ rest : List Char, ∃ ds, rest = ds ++ (([] : List Nat), rest).2 ∧ (ds = [] ∨ Run ds) ∧
      ((([] : List Nat), rest).1 = [] ↔ ds = []) := fun rest => ⟨[], rfl, .inl rfl, by simp⟩
  fun_induction takeDigits cs with
  | case1 => exact nothing []
  | case2 c none => exact nothing [c]
  | case3 c d value =>
    have one : Run [c] := .one (Option.isSome_iff_exists.mpr ⟨d, value⟩)
    exact ⟨[c], rfl, .inr one, by simp⟩
  | case4 c next rest none => exact nothing (c :: next :: rest)
  | case5 c next rest d value taken left later spaced close =>
    have digit : Text.isDigit c := Option.isSome_iff_exists.mpr ⟨d, value⟩
    split at later
    · next both =>
      -- The underscore is part of the run, since a digit follows it.
      obtain ⟨rfl, first⟩ := both
      obtain ⟨ds, whole, run, empty⟩ := spaced
      rw [later] at whole empty
      have run : Run ds := by
        apply run.resolve_left
        intro none
        cases rest with
        | nil => cases first
        | cons e tail =>
          have filled := takeDigits_filled first tail
          rw [later] at filled
          exact filled (empty.mpr none)
      exact ⟨c :: '_' :: ds, by rw [whole]; rfl, .inr (.spaced digit run), by simp⟩
    · obtain ⟨ds, whole, run, -⟩ := close
      rw [later] at whole
      refine ⟨c :: ds, by rw [whole]; rfl, .inr ?_, by simp⟩
      rcases run with rfl | run
      · exact .one digit
      · exact .next digit run

/-- What is read as the digits of a whole number is a run. -/
theorem digitRun_run {values : List Nat} (read : digitRun? cs = some values) : Run cs := by
  fun_induction digitRun? cs generalizing values with
  | case1 => cases read
  | case2 c =>
    obtain ⟨d, value, -⟩ := Option.map_eq_some_iff.mp read
    exact .one (Option.isSome_iff_exists.mpr ⟨d, value⟩)
  | case3 c rest ih =>
    obtain ⟨d, value, read⟩ := Option.bind_eq_some_iff.mp read
    obtain ⟨ds, later, -⟩ := Option.bind_eq_some_iff.mp read
    exact .spaced (Option.isSome_iff_exists.mpr ⟨d, value⟩) (ih later)
  | case4 c rest _ _ ih =>
    obtain ⟨d, value, read⟩ := Option.bind_eq_some_iff.mp read
    obtain ⟨ds, later, -⟩ := Option.bind_eq_some_iff.mp read
    exact .next (Option.isSome_iff_exists.mpr ⟨d, value⟩) (ih later)

theorem Scale.halts {e : List Char} (scale : Scale e) : Halts e := by
  cases scale with
  | none => exact halts_nil
  | run power _ _ =>
    intro c here
    obtain rfl := Option.some.inj here
    rcases power with rfl | rfl <;> decide

theorem splitSign_unsigned {sign : List Char} (signed : Sign sign)
    (unsigned : ∀ c ∈ cs.head?, c ≠ '-' ∧ c ≠ '+') :
    ∃ negative, splitSign (sign ++ cs) = (negative, cs) := by
  rcases signed with rfl | rfl | rfl
  · refine ⟨false, ?_⟩
    rw [List.nil_append]
    cases cs with
    | nil => rfl
    | cons c cs =>
      obtain ⟨minus, plus⟩ := unsigned c rfl
      unfold splitSign
      split
      · next same => exact absurd (List.cons.inj same).1 minus
      · next same => exact absurd (List.cons.inj same).1 plus
      · rfl
  · exact ⟨true, rfl⟩
  · exact ⟨false, rfl⟩

theorem splitSign_signed {negative : Bool} {body : List Char} (split : splitSign cs = (negative, body)) :
    ∃ sign, cs = sign ++ body ∧ Sign sign := by
  unfold splitSign at split
  split at split
  · cases split
    exact ⟨['-'], rfl, .inr (.inl rfl)⟩
  · cases split
    exact ⟨['+'], rfl, .inr (.inr rfl)⟩
  · cases split
    exact ⟨[], rfl, .inl rfl⟩

theorem Run.unsigned (run : Run ds) : ∀ c ∈ ds.head?, c ≠ '-' ∧ c ≠ '+' := by
  obtain ⟨c, tail, rfl, digit⟩ := run.cons
  intro d here
  obtain rfl := Option.some.inj here
  constructor <;> rintro rfl <;> exact absurd digit (by decide)

theorem Mantissa.read {m e : List Char} (mantissa : Mantissa m) (scale : Scale e) :
    ∃ w f left, takeDigits (m ++ e) = (w, left) ∧ takeFraction left = (f, e) ∧ (w ≠ [] ∨ f ≠ []) := by
  have stop : takeFraction e = ([], e) := by
    cases scale with
    | none => rfl
    | run power _ _ => rcases power with rfl | rfl <;> rfl
  cases mantissa with
  | whole run =>
    obtain ⟨d, ds, taken⟩ := run.takeDigits scale.halts
    exact ⟨d :: ds, [], e, taken, stop, .inl (List.cons_ne_nil _ _)⟩
  | @point w f whole fraction filled =>
    have halts : Halts ('.' :: (f ++ e)) := by
      intro c here
      obtain rfl := Option.some.inj here
      decide
    have runs : ∀ {ds rest : List Char}, ds = [] ∨ Run ds → Halts rest →
        ∃ values, takeDigits (ds ++ rest) = (values, rest) ∧ (ds ≠ [] → values ≠ []) := by
      rintro ds rest (rfl | run) halts
      · exact ⟨[], halts.takeDigits, fun some => absurd rfl some⟩
      · obtain ⟨d, values, taken⟩ := run.takeDigits halts
        exact ⟨d :: values, taken, fun _ => List.cons_ne_nil _ _⟩
    obtain ⟨ws, before, first⟩ := runs whole halts
    obtain ⟨fs, behind, second⟩ := runs fraction scale.halts
    refine ⟨ws, fs, '.' :: (f ++ e), ?_, behind, filled.imp first second⟩
    rw [List.append_assoc, List.cons_append, before]

theorem Scale.read {e : List Char} (scale : Scale e) : ∃ n, readExponent? e = some n := by
  cases scale with
  | none => exact ⟨0, rfl⟩
  | @run letter sign ds power signed run =>
    obtain ⟨negative, split⟩ := splitSign_unsigned signed run.unsigned
    obtain ⟨d, values, taken⟩ := run.takeDigits halts_nil
    rw [List.append_nil] at taken
    rw [readExponent?, if_pos power, split]
    dsimp only
    rw [taken]
    exact ⟨_, rfl⟩

theorem decimal_read {m e : List Char} (mantissa : Mantissa m) (scale : Scale e) :
    ∃ x, readDecimal? (m ++ e) = some x := by
  obtain ⟨w, f, left, first, second, filled⟩ := mantissa.read scale
  obtain ⟨n, third⟩ := scale.read
  have some : ¬ (w.isEmpty && f.isEmpty) = true := by
    simpa only [Bool.and_eq_true, List.isEmpty_iff, not_and_or] using filled
  unfold readDecimal?
  rw [first]
  dsimp only
  rw [second]
  dsimp only
  rw [if_neg some, third]
  exact ⟨_, rfl⟩

theorem readExponent_scale {n : Int} (read : readExponent? cs = some n) : Scale cs := by
  unfold readExponent? at read
  split at read
  · exact .none
  · next letter more =>
    split at read
    · next power =>
      split at read
      next negative body split =>
      obtain ⟨sign, rfl, signed⟩ := splitSign_signed split
      obtain ⟨ds, whole, run, empty⟩ := takeDigits_run body
      split at read
      · next d values taken =>
        rw [taken] at whole empty
        rw [whole, List.append_nil]
        apply Scale.run power signed
        exact run.resolve_left fun none => List.cons_ne_nil _ _ (empty.mpr none)
      · cases read
    · cases read

theorem takeFraction_run (cs : List Char) : ∃ f, cs = f ++ (takeFraction cs).2 ∧
    ((takeFraction cs).1 = [] ∧ f = [] ∨
      ∃ ds, f = '.' :: ds ∧ (ds = [] ∨ Run ds) ∧ ((takeFraction cs).1 = [] ↔ ds = [])) := by
  unfold takeFraction
  split
  · next more =>
    obtain ⟨ds, whole, run⟩ := takeDigits_run more
    exact ⟨'.' :: ds, congrArg ('.' :: ·) whole, .inr ⟨ds, rfl, run⟩⟩
  · exact ⟨[], rfl, .inl ⟨rfl, rfl⟩⟩

/-- What is read as a decimal is one. -/
theorem decimal_of_read {x : Float} (read : readDecimal? cs = some x) :
    ∃ m e, cs = m ++ e ∧ Mantissa m ∧ Scale e := by
  unfold readDecimal? at read
  obtain ⟨w, here, first, empty⟩ := takeDigits_run cs
  generalize takeDigits cs = taken at read here empty
  obtain ⟨ws, left⟩ := taken
  dsimp only at read here empty
  obtain ⟨f, there, second⟩ := takeFraction_run left
  generalize takeFraction left = taken at read there second
  obtain ⟨fs, e⟩ := taken
  dsimp only at read there second
  split at read
  · cases read
  · next filled =>
    obtain ⟨n, exponent, -⟩ := Option.map_eq_some_iff.mp read
    refine ⟨w ++ f, e, by rw [here, there, List.append_assoc], ?_, readExponent_scale exponent⟩
    simp only [Bool.and_eq_true, List.isEmpty_iff, not_and_or] at filled
    rcases second with ⟨none, rfl⟩ | ⟨ds, rfl, second, empty'⟩
    · -- Without a point there are digits before it.
      have some : w ≠ [] := fun nothing => filled.elim (· (empty.mpr nothing)) (· none)
      rw [List.append_nil]
      exact .whole (first.resolve_left some)
    · have some : w ≠ [] ∨ ds ≠ [] := filled.imp (mt empty.mpr) (mt empty'.mpr)
      exact .point first second some

theorem Unsigned.head {body : List Char} (unsigned : Unsigned body) :
    ∀ c ∈ body.head?, c ≠ '-' ∧ c ≠ '+' := by
  intro c here
  cases unsigned with
  | word word =>
    cases body with
    | nil => cases here
    | cons d body =>
      obtain rfl := Option.some.inj here
      constructor <;> rintro rfl <;> simp [String.ext_iff] at word
  | @decimal m e mantissa scale =>
    cases mantissa with
    | whole run =>
      obtain ⟨d, tail, rfl, digit⟩ := run.cons
      exact run.unsigned c here
    | @point w f whole fraction filled =>
      rcases whole with rfl | run
      · obtain rfl := Option.some.inj here
        decide
      · obtain ⟨d, tail, rfl, digit⟩ := run.cons
        exact run.unsigned c here

/-- The texts that are read as a float are those of numbers. -/
theorem readFloat_iff (stripped : Text.strip cs = cs) : (∃ x, readFloat? cs = some x) ↔ Spelling cs := by
  constructor
  · rintro ⟨x, read⟩
    unfold readFloat? at read
    rw [stripped] at read
    split at read
    next negative body split =>
    obtain ⟨sign, rfl, signed⟩ := splitSign_signed split
    refine ⟨sign, body, rfl, signed, ?_⟩
    dsimp only at read
    split at read
    · next word =>
      rw [Bool.or_eq_true, beq_iff_eq, beq_iff_eq] at word
      apply Unsigned.word
      rcases word with word | word <;> simp [word]
    split at read
    · next word =>
      rw [beq_iff_eq] at word
      apply Unsigned.word
      simp [word]
    · obtain ⟨y, decimal, -⟩ := Option.bind_eq_some_iff.mp read
      obtain ⟨m, e, rfl, mantissa, scale⟩ := decimal_of_read decimal
      exact .decimal mantissa scale
  · rintro ⟨sign, body, rfl, signed, unsigned⟩
    obtain ⟨negative, split⟩ := splitSign_unsigned signed unsigned.head
    unfold readFloat?
    rw [stripped, split]
    dsimp only
    split
    · exact ⟨_, rfl⟩
    · next finite =>
      split
      · exact ⟨_, rfl⟩
      · next number =>
        -- It is none of the words, so it must be a decimal.
        cases unsigned with
        | word word =>
          rw [Bool.or_eq_true, beq_iff_eq, beq_iff_eq] at finite
          rw [beq_iff_eq] at number
          simp only [List.mem_cons, List.not_mem_nil, or_false, ← or_assoc] at word
          exact absurd (word.resolve_right number) finite
        | decimal mantissa scale =>
          obtain ⟨x, read⟩ := decimal_read mantissa scale
          rw [read]
          exact ⟨_, rfl⟩

/-- Whatever is read as a whole number is the text of a number. -/
theorem readInteger_spelling {n : Int} (read : readInteger cs = .ok n) : Spelling cs := by
  unfold readInteger at read
  split at read
  next negative body split =>
  obtain ⟨sign, rfl, signed⟩ := splitSign_signed split
  refine ⟨sign, body, rfl, signed, ?_⟩
  split at read
  · cases read
  · next ds digits =>
    have decimal : Unsigned (body ++ []) := .decimal (.whole (digitRun_run digits)) .none
    rw [List.append_nil] at decimal
    exact decimal

end Number

end Kitchen

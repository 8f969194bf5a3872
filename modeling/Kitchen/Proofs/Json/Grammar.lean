import Kitchen.Proofs.Json.Rereading

namespace Kitchen.Json

open Number (Digits Whole Fraction)

def Blanks (cs : List Char) : Prop :=
  ∀ c ∈ cs, isBlank c

def UnitDigits (us : List Char) : Prop :=
  us.length = 4 ∧ ∀ c ∈ us, (Text.hexValue? c).isSome

inductive Quotable : List Char → Prop where
  | nil : Quotable []
  | plain {c : Char} {s : List Char} (quote : c ≠ '"') (slash : c ≠ '\\') (shown : 0x20 ≤ c.toNat)
      (rest : Quotable s) : Quotable (c :: s)
  | simple {e : Char} {s : List Char} (known : e ∈ ['"', '\\', '/', 'b', 'f', 'n', 'r', 't'])
      (rest : Quotable s) : Quotable ('\\' :: e :: s)
  | unit {us s : List Char} (unit : UnitDigits us) (rest : Quotable s) :
      Quotable ('\\' :: 'u' :: (us ++ s))

-- A numeral: a minus sign or none, a whole part, and perhaps a fraction and a power. Without these two the
-- whole part has no more digits than are converted.
inductive Numeral : List Char → Prop where
  | parts {sign w f e : List Char} (signed : sign = [] ∨ sign = ['-']) (whole : Whole w)
      (fraction : Fraction f) (power : Power e)
      (few : f = [] → e = [] → w.length ≤ Number.digitLimit) : Numeral (sign ++ (w ++ (f ++ e)))

inductive Part where
  | value
  | items
  | members
  deriving DecidableEq

-- The pieces of texts: values, and what stands between the brackets of lists and objects that are not empty.
inductive Spells : Part → List Char → Prop where
  | word {w : List Char} (word : w ∈ ["null".toList, "true".toList, "false".toList, "NaN".toList,
      "Infinity".toList, "-Infinity".toList]) : Spells .value w
  | numeral {cs : List Char} (numeral : Numeral cs) : Spells .value cs
  | text {s : List Char} (quotable : Quotable s) : Spells .value ('"' :: (s ++ ['"']))
  | noItems {b : List Char} (blanks : Blanks b) : Spells .value ('[' :: (b ++ [']']))
  | list {cs : List Char} (items : Spells .items cs) : Spells .value ('[' :: (cs ++ [']']))
  | noMembers {b : List Char} (blanks : Blanks b) : Spells .value ('{' :: (b ++ ['}']))
  | map {cs : List Char} (members : Spells .members cs) : Spells .value ('{' :: (cs ++ ['}']))
  | item {b v a : List Char} (before : Blanks b) (value : Spells .value v) (after : Blanks a) :
      Spells .items (b ++ (v ++ a))
  | items {b v a cs : List Char} (before : Blanks b) (value : Spells .value v) (after : Blanks a)
      (rest : Spells .items cs) : Spells .items (b ++ (v ++ (a ++ ',' :: cs)))
  | member {b k m d v a : List Char} (before : Blanks b) (key : Quotable k) (middle : Blanks m)
      (blanks : Blanks d) (value : Spells .value v) (after : Blanks a) :
      Spells .members (b ++ '"' :: (k ++ '"' :: (m ++ ':' :: (d ++ (v ++ a)))))
  | members {b k m d v a cs : List Char} (before : Blanks b) (key : Quotable k) (middle : Blanks m)
      (blanks : Blanks d) (value : Spells .value v) (after : Blanks a) (rest : Spells .members cs) :
      Spells .members (b ++ '"' :: (k ++ '"' :: (m ++ ':' :: (d ++ (v ++ (a ++ ',' :: cs))))))

def Document (cs : List Char) : Prop :=
  ∃ b v a, cs = b ++ (v ++ a) ∧ Blanks b ∧ Spells .value v ∧ Blanks a

variable {part : Part} {cs rest s us : List Char} {v : Value} {c : Char}

theorem hexNumber_isSome : (Text.hexNumber? cs).isSome ↔ ∀ c ∈ cs, (Text.hexValue? c).isSome := by
  unfold Text.hexNumber?
  generalize 0 = n
  induction cs generalizing n with
  | nil => simp
  | cons c cs ih =>
    rw [List.foldlM_cons, List.forall_mem_cons]
    cases digit : Text.hexValue? c with
    | none => simp
    | some d => simpa using ih (16 * n + d)

theorem digits_of_unit {n : Nat} (unit : unit? cs = some (n, rest)) : ∃ us, cs = us ++ rest ∧ UnitDigits us := by
  unfold unit? at unit
  split at unit
  · next long =>
    obtain ⟨m, number, same⟩ := Option.map_eq_some_iff.mp unit
    obtain ⟨rfl, rfl⟩ := Prod.mk.inj same
    refine ⟨cs.take 4, (List.take_append_drop 4 cs).symm, ?_, ?_⟩
    · rw [List.length_take]
      omega
    · exact hexNumber_isSome.mp (Option.isSome_iff_exists.mpr ⟨_, number⟩)
  · cases unit

theorem simple_known {e : Char} :
    e ∈ ['"', '\\', '/', 'b', 'f', 'n', 'r', 't'] ↔ e ≠ 'u' ∧ ∃ d, simpleEscape? e = some d := by
  constructor
  · intro known
    simp only [List.mem_cons, List.not_mem_nil, or_false] at known
    rcases known with rfl | rfl | rfl | rfl | rfl | rfl | rfl | rfl <;> exact ⟨by decide, _, rfl⟩
  · rintro ⟨-, d, simple⟩
    unfold simpleEscape? at simple
    split at simple
    all_goals first | decide | cases simple

theorem unitGlyph_spelled {g : Text.Glyph} (read : unitGlyph cs = .ok (g, rest)) :
    ∃ u, cs = u ++ rest ∧ ∀ s, Quotable s → Quotable ('\\' :: 'u' :: (u ++ s)) := by
  unfold unitGlyph at read
  split at read
  · cases read
  · next n left unit =>
    obtain ⟨us, rfl, digits⟩ := digits_of_unit unit
    have alone : ∃ u, us ++ left = u ++ left ∧ ∀ s, Quotable s → Quotable ('\\' :: 'u' :: (u ++ s)) :=
      ⟨us, rfl, fun s quotable => .unit digits quotable⟩
    split at read
    · split at read
      · next more =>
        split at read
        · cases read
          exact alone
        · split at read
          · cases read
          · next m left' unit' =>
            obtain ⟨us', rfl, digits'⟩ := digits_of_unit unit'
            split at read
            · obtain ⟨-, rfl⟩ := Prod.mk.inj (Except.ok.inj read)
              refine ⟨us ++ '\\' :: 'u' :: us', by simp, fun s quotable => ?_⟩
              rw [List.append_assoc]
              exact .unit digits (.unit digits' quotable)
            · cases read
              exact alone
      · cases read
        exact alone
    · cases read
      exact alone

/-- What is read as a text is one. -/
theorem string_spelled {start fuel : Nat} {gs : List Text.Glyph} (read : string start fuel cs = .ok (gs, rest)) :
    ∃ s, cs = s ++ '"' :: rest ∧ Quotable s := by
  induction fuel generalizing cs gs with
  | zero =>
    rw [string] at read
    cases read
  | succ fuel ih =>
    cases cs with
    | nil =>
      rw [string] at read
      cases read
    | cons c left =>
      rw [string.eq_def] at read
      dsimp only at read
      split at read
      · next quote =>
        cases read
        exact ⟨[], by rw [quote]; rfl, .nil⟩
      · next quote =>
        split at read
        · next slash =>
          subst slash
          split at read
          · cases read
          · next e more =>
            split at read
            · next unit =>
              subst unit
              obtain ⟨⟨g, left'⟩, escape, read⟩ := bind_ok read
              obtain ⟨⟨gs', left''⟩, later, read⟩ := bind_ok read
              cases read
              obtain ⟨s, rfl, quotable⟩ := ih later
              obtain ⟨u, rfl, spelled⟩ := unitGlyph_spelled escape
              exact ⟨'\\' :: 'u' :: (u ++ s), by simp, spelled s quotable⟩
            · next other =>
              split at read
              · next d simple =>
                obtain ⟨_, same, read⟩ := bind_ok read
                cases same
                obtain ⟨⟨gs', left'⟩, later, read⟩ := bind_ok read
                cases read
                obtain ⟨s, rfl, quotable⟩ := ih later
                exact ⟨'\\' :: e :: s, rfl, .simple (simple_known.mpr ⟨other, _, simple⟩) quotable⟩
              · cases read
        · next slash =>
          split at read
          · cases read
          · next shown =>
            obtain ⟨⟨gs', left'⟩, later, read⟩ := bind_ok read
            cases read
            obtain ⟨s, rfl, quotable⟩ := ih later
            exact ⟨c :: s, rfl, .plain quote slash (Nat.le_of_not_lt shown) quotable⟩

theorem digits_takeWhile (cs : List Char) : Digits (cs.takeWhile isDigit) := by
  intro c mem
  rw [← isDigit_eq]
  exact List.all_eq_true.mp List.all_takeWhile c mem

/-- Digits are taken as far as they go, from the first one on. -/
theorem digits_taken {c : Char} (cs : List Char) (digit : isDigit c) :
    ∃ ds, (c :: cs).takeWhile isDigit = c :: ds ∧ Digits (c :: ds) ∧
      c :: cs = c :: ds ++ (c :: cs).dropWhile isDigit := by
  have taken : (c :: cs).takeWhile isDigit = c :: cs.takeWhile isDigit := List.takeWhile_cons_of_pos digit
  have digits := digits_takeWhile (c :: cs)
  have whole := (List.takeWhile_append_dropWhile (p := isDigit) (l := c :: cs)).symm
  rw [taken] at digits whole
  exact ⟨_, taken, digits, whole⟩

theorem wholePart_spelled {ds : List Char} (found : wholePart? cs = some (ds, rest)) :
    cs = ds ++ rest ∧ Whole ds := by
  unfold wholePart? at found
  split at found
  · cases found
    exact ⟨rfl, .zero⟩
  · next c more nonzero =>
    split at found
    · next digit =>
      obtain ⟨ds', taken, digits, whole⟩ := digits_taken more digit
      cases found
      rw [taken]
      exact ⟨whole, .digits nonzero digits⟩
    · cases found
  · cases found

theorem fraction_spelled {fs : List Char} (found : fraction? cs = some (fs, rest)) :
    fs ≠ [] ∧ cs = '.' :: fs ++ rest ∧ Fraction ('.' :: fs) := by
  unfold fraction? at found
  split at found
  · next c more =>
    split at found
    · next digit =>
      obtain ⟨ds, taken, digits, whole⟩ := digits_taken more digit
      cases found
      rw [taken]
      exact ⟨List.cons_ne_nil _ _, congrArg ('.' :: ·) whole, .digits digits⟩
    · cases found
  · cases found

theorem exponent_spelled {n : Int} (found : exponent? cs = some (n, rest)) :
    ∃ e, e ≠ [] ∧ cs = e ++ rest ∧ Power e := by
  unfold exponent? at found
  split at found
  · next letter more =>
    split at found
    · next power =>
      split at found
      next negative body split =>
      obtain ⟨sign, rfl, signed⟩ := Number.splitSign_signed split
      dsimp only at found
      split at found
      · cases found
      · next some =>
        cases body with
        | nil => exact absurd rfl some
        | cons c body =>
          have digit : isDigit c := by
            by_contra other
            rw [List.takeWhile_cons_of_neg other] at some
            exact some rfl
          obtain ⟨ds, -, digits, whole⟩ := digits_taken body digit
          cases found
          refine ⟨letter :: (sign ++ c :: ds), List.cons_ne_nil _ _, ?_, .digits power signed digits⟩
          rw [List.cons_append, List.append_assoc, ← whole]
    · cases found
  · cases found

theorem number_spelled (read : number cs = .ok (v, rest)) : ∃ text, cs = text ++ rest ∧ Numeral text := by
  -- Sign, whole part, fraction and power are split off one after the other; each leaves what the next one is read from.
  unfold number at read
  split at read
  next negative body parted =>
  have signed : ∃ sign, cs = sign ++ body ∧ (sign = [] ∨ sign = ['-']) := by
    split at parted
    · cases parted
      exact ⟨['-'], rfl, .inr rfl⟩
    · cases parted
      exact ⟨[], rfl, .inl rfl⟩
  obtain ⟨sign, rfl, signed⟩ := signed
  split at read
  · cases read
  · next w left found =>
    obtain ⟨rfl, whole⟩ := wholePart_spelled found
    have fraction : ∃ f fs left', (fraction? left).getD ([], left) = (fs, left') ∧ left = f ++ left' ∧
        Fraction f ∧ (fs = [] ↔ f = []) := by
      cases found : fraction? left with
      | none => exact ⟨[], [], left, rfl, rfl, .none, Iff.rfl⟩
      | some p =>
        obtain ⟨filled, here, fraction⟩ := fraction_spelled found
        exact ⟨_, p.1, p.2, rfl, here, fraction, by simp [filled]⟩
    obtain ⟨f, fs, left', second, rfl, fraction, bare⟩ := fraction
    rw [second] at read
    dsimp only at read
    cases third : exponent? left' with
    | none =>
      rw [third] at read
      split at read
      · next none =>
        have nothing : fs = [] := by simpa using none
        obtain rfl := bare.mp nothing
        split at read
        · cases read
        · next few =>
          cases read
          refine ⟨sign ++ (w ++ ([] ++ [])), by simp, .parts signed whole .none .none fun _ _ => ?_⟩
          exact Nat.le_of_not_lt few
      · next some =>
        cases read
        refine ⟨sign ++ (w ++ (f ++ [])), by simp, .parts signed whole fraction .none fun none _ => ?_⟩
        rw [bare.mpr none] at some
        exact absurd rfl some
    | some p =>
      obtain ⟨e, filled, here, power⟩ := exponent_spelled third
      rw [third, if_neg (by simp)] at read
      cases read
      refine ⟨sign ++ (w ++ (f ++ e)), by simp [here], .parts signed whole fraction power fun _ none => ?_⟩
      exact absurd none filled

theorem word_spelled (found : word? cs = some (v, rest)) :
    ∃ w, cs = w ++ rest ∧ Spells .value w := by
  unfold word? at found
  obtain ⟨w, first, same⟩ := Option.map_eq_some_iff.mp found
  obtain ⟨-, rfl⟩ := Prod.mk.inj same
  have leads : w.1.isPrefixOf cs = true := by simpa using List.find?_some first
  have here : w.1 <+: cs := List.isPrefixOf_iff_prefix.mp leads
  obtain ⟨left, rfl⟩ := here
  have mem : w.1 ∈ words.map (·.1) := List.mem_map_of_mem (List.mem_of_find?_eq_some first)
  exact ⟨w.1, by rw [List.drop_left], .word mem⟩

theorem skipBlank_split (cs : List Char) : ∃ b, cs = b ++ skipBlank cs ∧ Blanks b :=
  ⟨cs.takeWhile isBlank, List.takeWhile_append_dropWhile.symm, fun c mem =>
    List.all_eq_true.mp List.all_takeWhile c mem⟩

theorem blanks_nil : Blanks [] :=
  List.forall_mem_nil _

theorem Blanks.append {b b' : List Char} (blanks : Blanks b) (blanks' : Blanks b') : Blanks (b ++ b') := by
  intro c mem
  rcases List.mem_append.mp mem with early | late
  · exact blanks c early
  · exact blanks' c late

/-- Blanks may be put in front of items and members, which can have some there already. -/
theorem Spells.behind {b : List Char} (spells : Spells part cs) (several : part ≠ .value) (blanks : Blanks b) :
    Spells part (b ++ cs) := by
  cases spells with
  | item before value after =>
    rw [← List.append_assoc]
    exact .item (blanks.append before) value after
  | items before value after rest =>
    rw [← List.append_assoc]
    exact .items (blanks.append before) value after rest
  | member before key middle between value after =>
    rw [← List.append_assoc]
    exact .member (blanks.append before) key middle between value after
  | members before key middle between value after rest =>
    rw [← List.append_assoc]
    exact .members (blanks.append before) key middle between value after rest
  | _ => exact absurd rfl several

-- What is read with an amount of fuel has the grammar: values, items and members, which call each other.
structure Spelled (fuel : Nat) : Prop where
  value : ∀ cs v rest, value fuel cs = .ok (v, rest) → ∃ text, cs = text ++ rest ∧ Spells .value text
  items : ∀ cs vs rest, items fuel cs = .ok (vs, rest) → ∃ text, cs = text ++ ']' :: rest ∧ Spells .items text
  members : ∀ done cs es rest, members fuel done cs = .ok (es, rest) →
    ∃ text, cs = text ++ '}' :: rest ∧ Spells .members text

variable {fuel : Nat}

theorem Spelled.next_value (spelled : Spelled fuel) (read : Json.value (fuel + 1) cs = .ok (v, rest)) :
    ∃ text, cs = text ++ rest ∧ Spells .value text := by
  cases cs with
  | nil =>
    rw [Json.value] at read
    cases read
  | cons c tail =>
    obtain ⟨b, whole, blanks⟩ := skipBlank_split tail
    rw [Json.value] at read
    split at read
    · next quote =>
      obtain ⟨⟨ds, left⟩, text, read⟩ := bind_ok read
      cases read
      obtain ⟨s, rfl, quotable⟩ := string_spelled text
      exact ⟨'"' :: (s ++ ['"']), by simp [quote], .text quotable⟩
    split at read
    · next bracket =>
      split at read
      · next left closed =>
        cases read
        rw [closed] at whole
        exact ⟨'[' :: (b ++ [']']), by simp [bracket, whole], .noItems blanks⟩
      · next inner _ =>
        obtain ⟨⟨vs, left⟩, later, read⟩ := bind_ok read
        cases read
        obtain ⟨text, here, spells⟩ := spelled.items _ _ _ later
        rw [here] at whole
        exact ⟨'[' :: (b ++ text ++ [']']), by simp [bracket, whole], .list (spells.behind (by decide) blanks)⟩
    split at read
    · next brace =>
      split at read
      · next left closed =>
        cases read
        rw [closed] at whole
        exact ⟨'{' :: (b ++ ['}']), by simp [brace, whole], .noMembers blanks⟩
      · next inner _ =>
        obtain ⟨⟨es, left⟩, later, read⟩ := bind_ok read
        cases read
        obtain ⟨text, here, spells⟩ := spelled.members _ _ _ _ later
        rw [here] at whole
        exact ⟨'{' :: (b ++ text ++ ['}']), by simp [brace, whole], .map (spells.behind (by decide) blanks)⟩
    split at read
    · next found word =>
      cases read
      exact word_spelled word
    · obtain ⟨text, here, numeral⟩ := number_spelled read
      exact ⟨text, here, .numeral numeral⟩

theorem Spelled.next_items {vs : List Value} (spelled : Spelled fuel)
    (read : Json.items (fuel + 1) cs = .ok (vs, rest)) :
    ∃ text, cs = text ++ ']' :: rest ∧ Spells .items text := by
  rw [Json.items] at read
  obtain ⟨⟨v, tail⟩, first, read⟩ := bind_ok read
  obtain ⟨text, here, value⟩ := spelled.value _ _ _ first
  obtain ⟨a, whole, after⟩ := skipBlank_split tail
  dsimp only at read
  split at read
  · next left closed =>
    cases read
    rw [whole, closed] at here
    have item : Spells .items ([] ++ (text ++ a)) := .item blanks_nil value after
    exact ⟨_, by simp [here], item⟩
  · next left comma =>
    obtain ⟨⟨ws, left'⟩, later, read⟩ := bind_ok read
    cases read
    obtain ⟨b, whole', before⟩ := skipBlank_split left
    obtain ⟨text', here', spells⟩ := spelled.items _ _ _ later
    rw [whole, comma, whole', here'] at here
    have items : Spells .items ([] ++ (text ++ (a ++ ',' :: (b ++ text')))) :=
      .items blanks_nil value after (spells.behind (by decide) before)
    exact ⟨_, by simp [here], items⟩
  · cases read

theorem Spelled.next_members {done es : List (Value × Value)} (spelled : Spelled fuel)
    (read : Json.members (fuel + 1) done cs = .ok (es, rest)) :
    ∃ text, cs = text ++ '}' :: rest ∧ Spells .members text := by
  unfold Json.members at read
  split at read
  · next tail =>
    obtain ⟨⟨k, tail'⟩, name, read⟩ := bind_ok read
    obtain ⟨s, quoted, key⟩ := string_spelled name
    obtain ⟨m, whole, middle⟩ := skipBlank_split tail'
    dsimp only at read
    split at read
    · next left colon =>
      obtain ⟨⟨v, tail₂⟩, first, read⟩ := bind_ok read
      obtain ⟨d, whole₂, between⟩ := skipBlank_split left
      obtain ⟨text, here, value⟩ := spelled.value _ _ _ first
      obtain ⟨a, whole₃, after⟩ := skipBlank_split tail₂
      dsimp only at read
      split at read
      · next left' closed =>
        cases read
        rw [whole₃, closed] at here
        rw [whole, colon, whole₂, here] at quoted
        have member : Spells .members ([] ++ '"' :: (s ++ '"' :: (m ++ ':' :: (d ++ (text ++ a))))) :=
          .member blanks_nil key middle between value after
        exact ⟨_, by simp [quoted], member⟩
      · next left' comma =>
        obtain ⟨b, whole₄, before⟩ := skipBlank_split left'
        obtain ⟨text', here', spells⟩ := spelled.members _ _ _ _ read
        rw [whole₃, comma, whole₄, here'] at here
        rw [whole, colon, whole₂, here] at quoted
        have members : Spells .members ([] ++ '"' :: (s ++ '"' :: (m ++ ':' :: (d ++ (text ++
            (a ++ ',' :: (b ++ text'))))))) :=
          .members blanks_nil key middle between value after (spells.behind (by decide) before)
        exact ⟨_, by simp [quoted], members⟩
      · cases read
    · cases read
  · cases read

theorem spelled (fuel : Nat) : Spelled fuel := by
  induction fuel with
  | zero =>
    refine ⟨fun cs v rest read => ?_, fun cs vs rest read => ?_, fun done cs es rest read => ?_⟩
    · rw [Json.value] at read
      cases read
    · rw [Json.items] at read
      cases read
    · rw [Json.members] at read
      cases read
  | succ fuel ih =>
    exact ⟨fun _ _ _ => ih.next_value, fun _ _ _ => ih.next_items, fun _ _ _ _ => ih.next_members⟩

theorem readChars_document (read : readChars cs = .ok v) : Document cs := by
  unfold readChars at read
  dsimp only at read
  split at read
  · cases read
  obtain ⟨⟨w, tail⟩, first, read⟩ := bind_ok read
  obtain ⟨b, whole, before⟩ := skipBlank_split cs
  obtain ⟨a, whole', after⟩ := skipBlank_split tail
  obtain ⟨text, here, value⟩ := (spelled _).value _ _ _ first
  dsimp only at read
  split at read
  · next nothing =>
    rw [nothing, List.append_nil] at whole'
    rw [here, whole'] at whole
    exact ⟨b, text, a, whole, before, value, after⟩
  · cases read

end Kitchen.Json

import Kitchen.Proofs.Json.Grammar
import Mathlib.Data.List.TakeWhile

namespace Kitchen.Json

variable {part : Part} {cs rest s us : List Char} {c : Char} {fuel : Nat}

theorem unit_digits (digits : UnitDigits us) (filled : s ≠ []) : ∃ n, unit? (us ++ s) = some (n, s) := by
  obtain ⟨n, number⟩ := Option.isSome_iff_exists.mp (hexNumber_isSome.mpr digits.2)
  refine ⟨n, ?_⟩
  have long : 4 < (us ++ s).length := by
    have := List.length_pos_iff.mpr filled
    rw [List.length_append, digits.1]
    omega
  unfold unit?
  rw [if_pos long, List.take_left' digits.1, List.drop_left' digits.1, number]
  rfl

theorem Quotable.unit_read (digits : UnitDigits us) (quotable : Quotable s) (rest : List Char) :
    ∃ g s', unitGlyph (us ++ (s ++ '"' :: rest)) = .ok (g, s' ++ '"' :: rest) ∧ Quotable s' ∧
      s'.length ≤ s.length := by
  have filled : s ++ '"' :: rest ≠ [] := List.append_ne_nil_of_right_ne_nil _ (List.cons_ne_nil _ _)
  obtain ⟨n, unit⟩ := unit_digits digits filled
  unfold unitGlyph
  rw [unit]
  dsimp only
  by_cases high : isHigh n
  · -- A high half takes the low half with it that the next unit may be.
    rw [if_pos high]
    cases quotable with
    | nil => exact ⟨_, [], rfl, .nil, Nat.le_refl _⟩
    | @plain c s quote slash shown quotable =>
      refine ⟨.ofCode n, c :: s, ?_, .plain quote slash shown quotable, Nat.le_refl _⟩
      rw [List.cons_append]
      split
      · next same => exact absurd (List.cons.inj same).1 slash
      · rfl
    | @simple e s known quotable =>
      refine ⟨.ofCode n, '\\' :: e :: s, ?_, .simple known quotable, Nat.le_refl _⟩
      rw [List.cons_append, List.cons_append]
      split
      · next same =>
        obtain ⟨rfl, -⟩ := List.cons.inj (List.cons.inj same).2
        exact absurd rfl (simple_known.mp known).1
      · rfl
    | @unit us' s digits' quotable =>
      have filled' : s ++ '"' :: rest ≠ [] := List.append_ne_nil_of_right_ne_nil _ (List.cons_ne_nil _ _)
      obtain ⟨m, unit'⟩ := unit_digits digits' filled'
      have long : ¬ (us' ++ (s ++ '"' :: rest)).length ≤ 4 := by
        have := List.length_pos_iff.mpr filled'
        rw [List.length_append, digits'.1]
        omega
      have apart : '\\' :: 'u' :: (us' ++ s) ++ '"' :: rest = '\\' :: 'u' :: (us' ++ (s ++ '"' :: rest)) := by
        rw [List.cons_append, List.cons_append, List.append_assoc]
      rw [apart]
      split
      · next more same =>
        obtain rfl := (List.cons.inj (List.cons.inj same).2).2
        rw [if_neg long, unit']
        dsimp only
        split
        · refine ⟨_, s, rfl, quotable, ?_⟩
          simp only [List.length_cons, List.length_append]
          omega
        · refine ⟨.ofCode n, '\\' :: 'u' :: (us' ++ s), ?_, .unit digits' quotable, Nat.le_refl _⟩
          rw [apart]
      · next other => exact absurd rfl (other _)
  · rw [if_neg high]
    exact ⟨_, s, rfl, quotable, Nat.le_refl _⟩

/-- What may stand between quotes is read up to the closing one. -/
theorem Quotable.read {start fuel : Nat} (quotable : Quotable s) (enough : s.length < fuel) (rest : List Char) :
    ∃ gs, string start fuel (s ++ '"' :: rest) = .ok (gs, rest) := by
  -- By the fuel and not by the text, since a round may take two units at once.
  induction fuel generalizing s with
  | zero => exact absurd enough (Nat.not_lt_zero _)
  | succ fuel ih =>
    cases quotable with
    | nil =>
      refine ⟨[], ?_⟩
      change string start (fuel + 1) ('"' :: rest) = _
      unfold string
      rw [if_pos rfl]
    | @plain c s quote slash shown quotable =>
      obtain ⟨gs, later⟩ := ih quotable (Nat.lt_of_succ_lt_succ enough)
      rw [List.cons_append, string_plain quote slash shown, later]
      exact ⟨.char c :: gs, rfl⟩
    | @simple e s known quotable =>
      obtain ⟨other, d, simple⟩ := simple_known.mp known
      rw [List.length_cons, List.length_cons] at enough
      obtain ⟨gs, later⟩ := ih quotable (by omega)
      rw [List.cons_append, List.cons_append, string_escape other simple, later]
      exact ⟨.char d :: gs, rfl⟩
    | @unit us s digits quotable =>
      obtain ⟨g, s', unit, quotable', shorter⟩ := quotable.unit_read digits rest
      simp only [List.length_cons, List.length_append] at enough
      obtain ⟨gs, later⟩ := ih quotable' (by omega)
      rw [List.cons_append, List.cons_append, List.append_assoc, string_unit unit, later]
      exact ⟨g :: gs, rfl⟩

-- A text that is read as some value, whatever follows it: no float has to come back as it was.
def Legible (cs : List Char) : Prop :=
  Readable (.float 0) cs

/-- A text between two signs is read if it is read up to the second one after the first. -/
theorem enclosed_legible {first last : Char} (leads : Leads first)
    (read : ∀ fuel rest, cs.length < fuel →
      ∃ v, value (fuel + 1) (first :: (cs ++ last :: rest)) = .ok (v, rest)) :
    Legible (first :: (cs ++ [last])) := by
  apply Readable.of_next ⟨first, _, rfl, leads⟩
  intro fuel rest enough _
  have text : first :: (cs ++ [last]) ++ rest = first :: (cs ++ last :: rest) := by simp
  have size : cs.length < fuel := by
    simp only [List.length_cons, List.length_append] at enough
    omega
  obtain ⟨v, read⟩ := read fuel rest size
  rw [text]
  exact ⟨v, read, back_float 0 v⟩

theorem word_legible (word : cs ∈ words.map (·.1)) : Legible cs := by
  obtain ⟨w, mem, rfl⟩ := List.mem_map.mp word
  exact word_readable mem (back_float 0 _)

theorem Numeral.legible (numeral : Numeral cs) : Legible cs := by
  obtain @⟨sign, w, f, e, signed, whole, fraction, power, few⟩ := numeral
  have readable := fun negative =>
    @numeral_readable (.float 0) w f e negative whole fraction power few fun n _ => back_float 0 n
  rcases signed with rfl | rfl
  · exact readable false
  · exact readable true

theorem Quotable.legible (quotable : Quotable s) : Legible ('"' :: (s ++ ['"'])) := by
  apply enclosed_legible (by decide)
  intro fuel rest _
  have enough : s.length < (s ++ '"' :: rest).length + 1 := by
    rw [List.length_append]
    omega
  obtain ⟨ds, read⟩ := quotable.read enough rest
  rw [Json.value, if_pos rfl, read]
  exact ⟨_, rfl⟩

theorem skipBlank_blanks {b : List Char} (blanks : Blanks b) (sign : isBlank c = false) :
    skipBlank (b ++ c :: rest) = c :: rest := by
  unfold skipBlank
  rw [List.dropWhile_append_of_pos blanks, List.dropWhile_cons, sign, if_neg Bool.false_ne_true]

theorem ends_blanks {b : List Char} (blanks : Blanks b) (ends : Ends rest) : Ends (b ++ rest) := by
  cases b with
  | nil => exact ends
  | cons c b =>
    have blank : isBlank c := blanks c List.mem_cons_self
    apply ends_cons
    refine ⟨?_, ?_, ?_, ?_⟩
    · cases digit : isDigit c with
      | false => rfl
      | true =>
        have lead := leads_digit ((isDigit_eq c).symm.trans digit)
        rw [lead.1] at blank
        cases blank
    all_goals
      rintro rfl
      cases blank

def Inner (cs : List Char) : Prop :=
  ∃ b text, cs = b ++ text ∧ Blanks b ∧ Leading text

theorem Inner.skipBlank (inner : Inner cs) (rest : List Char) : Leading (skipBlank (cs ++ rest)) := by
  obtain ⟨b, text, rfl, blanks, leads⟩ := inner
  rw [List.append_assoc, (leads.append rest).skipBlanks blanks]
  exact leads.append rest

-- A piece is read where it may stand: a value before all that ends it, items and members before the closing
-- sign.
def Stands : Part → List Char → Prop
  | .value, cs => Legible cs
  | .items, cs => Inner cs ∧ ∀ fuel rest, cs.length < fuel →
      ∃ vs, items fuel (skipBlank (cs ++ ']' :: rest)) = .ok (vs, rest)
  | .members, cs => Inner cs ∧ ∀ fuel done rest, cs.length < fuel →
      ∃ es, members fuel done (skipBlank (cs ++ '}' :: rest)) = .ok (es, rest)

theorem list_legible (stands : Stands .items cs) : Legible ('[' :: (cs ++ [']'])) := by
  obtain ⟨inner, read⟩ := stands
  apply enclosed_legible (by decide)
  intro fuel rest size
  obtain ⟨vs, read⟩ := read fuel rest size
  obtain ⟨c, tail, here, lead⟩ := inner.skipBlank (']' :: rest)
  rw [Json.value, if_neg (by decide), if_pos rfl]
  split
  · next bracket =>
    rw [here] at bracket
    exact absurd (List.cons.inj bracket).1 lead.2.1
  · rw [read]
    exact ⟨_, rfl⟩

theorem map_legible (stands : Stands .members cs) : Legible ('{' :: (cs ++ ['}'])) := by
  obtain ⟨inner, read⟩ := stands
  apply enclosed_legible (by decide)
  intro fuel rest size
  obtain ⟨es, read⟩ := read fuel [] rest size
  obtain ⟨c, tail, here, lead⟩ := inner.skipBlank ('}' :: rest)
  rw [Json.value, if_neg (by decide), if_neg (by decide), if_pos rfl]
  split
  · next brace =>
    rw [here] at brace
    exact absurd (List.cons.inj brace).1 lead.2.2.1
  · rw [read]
    exact ⟨_, rfl⟩

theorem noItems_legible {b : List Char} (blanks : Blanks b) : Legible ('[' :: (b ++ [']'])) := by
  apply enclosed_legible (by decide)
  intro fuel rest _
  rw [Json.value, if_neg (by decide), if_pos rfl, skipBlank_blanks blanks rfl]
  exact ⟨_, rfl⟩

theorem noMembers_legible {b : List Char} (blanks : Blanks b) : Legible ('{' :: (b ++ ['}'])) := by
  apply enclosed_legible (by decide)
  intro fuel rest _
  rw [Json.value, if_neg (by decide), if_neg (by decide), if_pos rfl, skipBlank_blanks blanks rfl]
  exact ⟨_, rfl⟩

theorem Inner.of_value {b v : List Char} (before : Blanks b) (value : Legible v) (tail : List Char) :
    Inner (b ++ (v ++ tail)) :=
  ⟨b, v ++ tail, rfl, before, value.leads.append tail⟩

theorem item_stands {b v a : List Char} (before : Blanks b) (value : Legible v) (after : Blanks a) :
    Stands .items (b ++ (v ++ a)) := by
  refine ⟨.of_value before value a, fun fuel rest enough => ?_⟩
  obtain ⟨fuel, rfl⟩ := Nat.exists_eq_succ_of_ne_zero (Nat.ne_of_gt (Nat.zero_lt_of_lt enough))
  simp only [List.length_append] at enough
  obtain ⟨w, read, -⟩ := value.read fuel (a ++ ']' :: rest) (by omega) (ends_blanks after (ends_bracket rest))
  refine ⟨[w], ?_⟩
  rw [List.append_assoc, List.append_assoc, (value.leads.append _).skipBlanks before, Json.items, read]
  dsimp only [bind, Except.bind]
  rw [skipBlank_blanks after rfl]
  rfl

theorem items_stand {b v a : List Char} (before : Blanks b) (value : Legible v) (after : Blanks a)
    (others : Stands .items cs) : Stands .items (b ++ (v ++ (a ++ ',' :: cs))) := by
  refine ⟨.of_value before value _, fun fuel rest enough => ?_⟩
  obtain ⟨fuel, rfl⟩ := Nat.exists_eq_succ_of_ne_zero (Nat.ne_of_gt (Nat.zero_lt_of_lt enough))
  simp only [List.length_append, List.length_cons] at enough
  obtain ⟨w, read, -⟩ := value.read fuel (a ++ ',' :: (cs ++ ']' :: rest)) (by omega)
    (ends_blanks after (ends_comma _))
  obtain ⟨vs, later⟩ := others.2 fuel rest (by omega)
  refine ⟨w :: vs, ?_⟩
  rw [List.append_assoc, List.append_assoc, List.append_assoc, List.cons_append,
    (value.leads.append _).skipBlanks before, Json.items, read]
  dsimp only [bind, Except.bind]
  rw [skipBlank_blanks after rfl]
  change (items fuel (skipBlank (cs ++ ']' :: rest)) >>= _) = _
  rw [later]
  rfl

/-- The key of a member is read, and the colon and the value after it. -/
theorem member_read {b k m d v : List Char} (before : Blanks b) (key : Quotable k) (middle : Blanks m)
    (between : Blanks d) (value : Legible v) (enough : v.length ≤ fuel) (ends : Ends rest)
    (done : List (Value × Value)) :
    ∃ done', members (fuel + 1) done (skipBlank (b ++ '"' :: (k ++ '"' :: (m ++ ':' :: (d ++ (v ++ rest)))))) =
      match skipBlank rest with
      | '}' :: left => .ok (done', left)
      | ',' :: left => members fuel done' (skipBlank left)
      | left => .error ⟨.noComma, left.length⟩ := by
  obtain ⟨w, read, -⟩ := value.read fuel rest enough ends
  have room : k.length < (k ++ '"' :: (m ++ ':' :: (d ++ (v ++ rest)))).length + 1 := by
    rw [List.length_append]
    omega
  obtain ⟨gs, name⟩ := key.read room (m ++ ':' :: (d ++ (v ++ rest)))
  refine ⟨Value.insert (.ofGlyphs gs) w done, ?_⟩
  rw [skipBlank_blanks before rfl, Json.members, name]
  dsimp only [bind, Except.bind]
  rw [skipBlank_blanks middle rfl]
  change (Json.value fuel (skipBlank (d ++ (v ++ rest))) >>= _) = _
  rw [(value.leads.append rest).skipBlanks between, read]
  rfl

theorem Inner.of_key {b : List Char} (before : Blanks b) (tail : List Char) : Inner (b ++ '"' :: tail) :=
  ⟨b, '"' :: tail, rfl, before, '"', tail, rfl, by decide⟩

theorem member_stands {b k m d v a : List Char} (before : Blanks b) (key : Quotable k) (middle : Blanks m)
    (between : Blanks d) (value : Legible v) (after : Blanks a) :
    Stands .members (b ++ '"' :: (k ++ '"' :: (m ++ ':' :: (d ++ (v ++ a))))) := by
  refine ⟨.of_key before _, fun fuel done rest enough => ?_⟩
  obtain ⟨fuel, rfl⟩ := Nat.exists_eq_succ_of_ne_zero (Nat.ne_of_gt (Nat.zero_lt_of_lt enough))
  simp only [List.length_append, List.length_cons] at enough
  obtain ⟨done', read⟩ := member_read before key middle between value (show v.length ≤ fuel by omega)
    (ends_blanks after (ends_brace rest)) done
  refine ⟨done', ?_⟩
  simp only [List.append_assoc, List.cons_append]
  rw [read, skipBlank_blanks after rfl]
  rfl

theorem members_stand {b k m d v a : List Char} (before : Blanks b) (key : Quotable k) (middle : Blanks m)
    (between : Blanks d) (value : Legible v) (after : Blanks a) (others : Stands .members cs) :
    Stands .members (b ++ '"' :: (k ++ '"' :: (m ++ ':' :: (d ++ (v ++ (a ++ ',' :: cs)))))) := by
  refine ⟨.of_key before _, fun fuel done rest enough => ?_⟩
  obtain ⟨fuel, rfl⟩ := Nat.exists_eq_succ_of_ne_zero (Nat.ne_of_gt (Nat.zero_lt_of_lt enough))
  simp only [List.length_append, List.length_cons] at enough
  obtain ⟨done', read⟩ := member_read before key middle between value (show v.length ≤ fuel by omega)
    (ends_blanks after (ends_comma (cs ++ '}' :: rest))) done
  obtain ⟨es, later⟩ := others.2 fuel done' rest (by omega)
  refine ⟨es, ?_⟩
  simp only [List.append_assoc, List.cons_append]
  rw [read, skipBlank_blanks after rfl]
  exact later

/-- Whatever has the grammar can be read where it may stand. -/
theorem Spells.stands (spells : Spells part cs) : Stands part cs := by
  -- One case for each rule; what stands inside of a piece is read by induction.
  induction spells with
  | word word => exact word_legible word
  | numeral numeral => exact numeral.legible
  | text quotable => exact quotable.legible
  | noItems blanks => exact noItems_legible blanks
  | list _ items => exact list_legible items
  | noMembers blanks => exact noMembers_legible blanks
  | map _ members => exact map_legible members
  | item before _ after value => exact item_stands before value after
  | items before _ after _ value others => exact items_stand before value after others
  | member before key middle between _ after value =>
    exact member_stands before key middle between value after
  | members before key middle between _ after _ value others =>
    exact members_stand before key middle between value after others

theorem Document.read (document : Document cs) : ∃ v, readChars cs = .ok v := by
  obtain ⟨b, text, a, rfl, before, spells, after⟩ := document
  have value : Legible text := spells.stands
  -- The first character is a blank or begins the value, so there is no mark in front.
  have unmarked : (b ++ (text ++ a)).head? ≠ some '\uFEFF' := by
    intro mark
    cases b with
    | nil =>
      obtain ⟨c, tail, here, lead⟩ := value.leads.append a
      rw [List.nil_append, here] at mark
      exact lead.2.2.2 (Option.some.inj mark)
    | cons c b =>
      have blank := before c List.mem_cons_self
      obtain rfl := Option.some.inj mark
      cases blank
  have ends : Ends a := by
    have blank := ends_blanks after ends_nil
    rw [List.append_nil] at blank
    exact blank
  have nothing : skipBlank a = [] := by
    unfold skipBlank
    exact List.dropWhile_eq_nil_iff.mpr after
  have enough : text.length ≤ 2 * (b ++ (text ++ a)).length + 2 := by
    simp only [List.length_append]
    omega
  obtain ⟨v, read, -⟩ := value.read _ a enough ends
  refine ⟨v, ?_⟩
  unfold readChars
  rw [if_neg unmarked, (value.leads.append a).skipBlanks before]
  change (Json.value _ (text ++ a) >>= _) = _
  rw [read]
  dsimp only [bind, Except.bind]
  rw [nothing]
  rfl

/-- The texts that can be read are those that have the grammar. -/
theorem readChars_iff : (∃ v, readChars cs = .ok v) ↔ Document cs :=
  ⟨fun ⟨_, read⟩ => readChars_document read, Document.read⟩

end Kitchen.Json

import Kitchen.Proofs.Json.Plain
import Kitchen.Proofs.Number.Whole
import Kitchen.Value.Literal

namespace Kitchen.Json

open Text (Glyph)

inductive Numeric : Value → Prop where
  | bool (b : Bool) : Numeric (.bool b)
  | int {n : Int} (short : Number.Short n) : Numeric (.int n)
  | float (x : Float) : Numeric (.float x)

inductive Alike : List Value → Prop where
  | texts {ks : List Value} (all : ∀ k ∈ ks, k.isText) : Alike ks
  | numbers {ks : List Value} (all : ∀ k ∈ ks, Numeric k) : Alike ks
  | null : Alike [.null]

variable {k l : Value} {n : Int} {cs : List Char}

theorem isShowable_int : (Value.int n).isShowable ↔ Number.Short n := by
  rw [Value.isShowable, decide_eq_true_eq]
  exact Number.digitsOf_length (by decide)

theorem keyText_ok {gs : List Glyph} (showable : k.isShowable) (written : keyText k = .ok gs) :
    k.isText ∨ Numeric k ∨ k = .null := by
  cases k with
  | text s => exact .inl rfl
  | torn t => exact .inl rfl
  | null => exact .inr (.inr rfl)
  | bool b => exact .inr (.inl (.bool b))
  | int n => exact .inr (.inl (.int (isShowable_int.mp showable)))
  | float x => exact .inr (.inl (.float x))
  | _ => cases written

theorem Numeric.keyText (numeric : Numeric k) : ∃ gs, keyText k = .ok gs := by
  cases numeric <;> exact ⟨_, rfl⟩

theorem Numeric.keyBefore (numeric : Numeric k) (numeric' : Numeric l) :
    ∃ before, keyBefore? k l = some before := by
  cases numeric <;> cases numeric' <;> exact ⟨_, rfl⟩

theorem glyphs?_isText (text : k.isText) : ∃ gs, k.glyphs? = some gs := by
  obtain ⟨gs, rfl⟩ := Value.exists_ofGlyphs text
  exact ⟨gs, Value.glyphs?_ofGlyphs gs⟩

theorem Numeric.glyphs? (numeric : Numeric k) : k.glyphs? = none := by
  cases numeric <;> rfl

/-- Among the keys that are written, a text compares with texts only, and a number with numbers only. -/
theorem keyBefore_alike {before : Bool} (key : k.isText ∨ Numeric k ∨ k = .null)
    (key' : l.isText ∨ Numeric l ∨ l = .null) (compared : keyBefore? k l = some before) :
    (k.isText ∧ l.isText) ∨ (Numeric k ∧ Numeric l) := by
  have other : Numeric k ∨ k = .null → k.glyphs? = none :=
    fun bare => bare.elim Numeric.glyphs? fun null => null ▸ rfl
  have other' : Numeric l ∨ l = .null → l.glyphs? = none :=
    fun bare => bare.elim Numeric.glyphs? fun null => null ▸ rfl
  rw [keyBefore?] at compared
  rcases key with text | bare
  · obtain ⟨gs, glyphs⟩ := glyphs?_isText text
    rcases key' with text' | bare'
    · exact .inl ⟨text, text'⟩
    · rw [glyphs, other' bare'] at compared
      cases compared
  · rcases key' with text' | bare'
    · obtain ⟨hs, glyphs⟩ := glyphs?_isText text'
      rw [glyphs, other bare] at compared
      cases compared
    · -- Of the two that are no texts, only numbers compare.
      rcases bare with numeric | rfl <;> rcases bare' with numeric' | rfl
      · exact .inr ⟨numeric, numeric'⟩
      · cases numeric <;> cases compared
      · cases numeric' <;> cases compared
      · cases compared

variable {done sorted ws : List (Value × List Char)}

/-- Placing an entry adds it and nothing else. -/
theorem place_perm (placed : place k cs done = .ok sorted) : sorted.Perm ((k, cs) :: done) := by
  induction done generalizing sorted with
  | nil =>
    cases placed
    exact .refl _
  | cons w done ih =>
    obtain ⟨k', cs'⟩ := w
    rw [place] at placed
    split at placed
    · cases placed
    · cases placed
      exact .refl _
    · cases later : place k cs done with
      | error u =>
        rw [later] at placed
        cases placed
      | ok rest =>
        rw [later] at placed
        cases placed
        exact ((ih later).cons _).trans (.swap _ _ _)

/-- An entry that is placed among others has been compared with the first of them. -/
theorem place_compared {w : Value × List Char} (placed : place k cs (w :: done) = .ok sorted) :
    ∃ before, keyBefore? k w.1 = some before := by
  rw [place] at placed
  cases compared : keyBefore? k w.1 with
  | none =>
    rw [compared] at placed
    cases placed
  | some before => exact ⟨before, rfl⟩

theorem place_ok (cs : List Char) (compares : ∀ w ∈ done, ∃ before, keyBefore? k w.1 = some before) :
    ∃ sorted, place k cs done = .ok sorted := by
  induction done with
  | nil => exact ⟨_, rfl⟩
  | cons w done ih =>
    obtain ⟨⟨before, first⟩, rest⟩ := List.forall_mem_cons.mp compares
    obtain ⟨sorted, later⟩ := ih rest
    rw [place, first]
    cases before with
    | true => exact ⟨_, rfl⟩
    | false =>
      rw [later]
      exact ⟨_, rfl⟩

def placeAll (ws done : List (Value × List Char)) : Except Unwritable (List (Value × List Char)) :=
  ws.foldlM (fun sorted (w : Value × List Char) => place w.1 w.2 sorted) done

theorem sortEntries_eq (ws : List (Value × List Char)) : sortEntries ws = placeAll ws [] :=
  rfl

theorem placeAll_cons {w : Value × List Char} (placed : placeAll (w :: ws) done = .ok sorted) :
    ∃ next, place w.1 w.2 done = .ok next ∧ placeAll ws next = .ok sorted := by
  unfold placeAll at placed
  rw [List.foldlM_cons] at placed
  exact bind_ok placed

theorem placeAll_perm (placed : placeAll ws done = .ok sorted) : sorted.Perm (ws ++ done) := by
  induction ws generalizing done with
  | nil =>
    cases placed
    exact .refl _
  | cons w ws ih =>
    obtain ⟨next, first, rest⟩ := placeAll_cons placed
    calc List.Perm sorted (ws ++ next) := ih rest
      List.Perm _ (ws ++ w :: done) := (place_perm first).append_left ws
      List.Perm _ (w :: ws ++ done) := List.perm_middle

/-- What holds of a key with every key that it compares with holds of all keys in order if it holds of one. -/
theorem placeAll_spreads {P : Value → Prop} (some : done ≠ []) (held : ∀ w ∈ done, P w.1)
    (spreads : ∀ w ∈ ws, ∀ l before, P l → keyBefore? w.1 l = .some before → P w.1)
    (placed : placeAll ws done = .ok sorted) : ∀ w ∈ ws, P w.1 := by
  induction ws generalizing done with
  | nil => exact List.forall_mem_nil _
  | cons w ws ih =>
    obtain ⟨next, first, rest⟩ := placeAll_cons placed
    obtain ⟨spread, spreads'⟩ := List.forall_mem_cons.mp spreads
    obtain ⟨e, done, rfl⟩ := List.exists_cons_of_ne_nil some
    obtain ⟨before, compared⟩ := place_compared first
    have here : P w.1 := spread e.1 before (held e List.mem_cons_self) compared
    have perm := place_perm first
    have held' : ∀ w' ∈ next, P w'.1 := by
      intro w' mem
      rcases List.mem_cons.mp (perm.mem_iff.mp mem) with rfl | earlier
      · exact here
      · exact held w' earlier
    have some' : next ≠ [] := by
      rintro rfl
      exact absurd perm.length_eq (by simp)
    exact List.forall_mem_cons.mpr ⟨here, ih some' held' spreads' rest⟩

/-- Entries that were put in order, and whose keys are written, have keys of one kind. -/
theorem alike_of_sorted (placed : sortEntries ws = .ok sorted)
    (keys : ∀ w ∈ ws, w.1.isText ∨ Numeric w.1 ∨ w.1 = .null) : Alike (ws.map (·.1)) := by
  -- The second entry is compared with the first, and all others with one that was compared before them.
  match ws, keys, placed with
  | [], _, _ => exact .texts (by simp)
  | [w], keys, _ =>
    rcases keys w List.mem_cons_self with text | numeric | null
    · exact .texts (by simpa using text)
    · exact .numbers (by simpa using numeric)
    · rw [List.map_singleton, null]
      exact .null
  | w :: w₂ :: ws, keys, placed =>
    obtain ⟨key, keys'⟩ := List.forall_mem_cons.mp keys
    rw [sortEntries_eq] at placed
    obtain ⟨next, first, placed⟩ := placeAll_cons placed
    cases first
    obtain ⟨next, second, -⟩ := placeAll_cons placed
    obtain ⟨before, compared⟩ := place_compared second
    have all : ∀ {P : Value → Prop}, P w.1 →
        (∀ e ∈ w₂ :: ws, ∀ l before, P l → keyBefore? e.1 l = some before → P e.1) →
        ∀ k ∈ (w :: w₂ :: ws).map (·.1), P k := by
      intro P here spreads k mem
      have later := placeAll_spreads (List.cons_ne_nil _ _) (by simpa using here) spreads placed
      obtain ⟨e, there, rfl⟩ := List.mem_map.mp mem
      rcases List.mem_cons.mp there with rfl | mem
      · exact here
      · exact later e mem
    rcases keyBefore_alike (keys' w₂ List.mem_cons_self) key compared with ⟨-, text⟩ | ⟨-, numeric⟩
    · refine .texts (all text fun e mem l before text compared => ?_)
      rcases keyBefore_alike (keys' e mem) (.inl text) compared with ⟨text', -⟩ | ⟨-, numeric⟩
      · exact text'
      · cases numeric <;> cases text
    · refine .numbers (all numeric fun e mem l before numeric compared => ?_)
      rcases keyBefore_alike (keys' e mem) (.inr (.inl numeric)) compared with ⟨-, text⟩ | ⟨numeric', -⟩
      · cases numeric <;> cases text
      · exact numeric'

/-- Entries with keys of which any two compare can be put in order. -/
theorem placeAll_ok {P : Value → Prop}
    (compares : ∀ k l, P k → P l → ∃ before, keyBefore? k l = some before)
    (keys : ∀ w ∈ ws, P w.1) (keys' : ∀ w ∈ done, P w.1) : ∃ sorted, placeAll ws done = .ok sorted := by
  induction ws generalizing done with
  | nil => exact ⟨done, rfl⟩
  | cons w ws ih =>
    obtain ⟨key, keys⟩ := List.forall_mem_cons.mp keys
    obtain ⟨next, first⟩ := place_ok w.2 fun e mem => compares w.1 e.1 key (keys' e mem)
    have perm := place_perm first
    obtain ⟨sorted, rest⟩ := ih keys fun e mem =>
      (List.mem_cons.mp (perm.mem_iff.mp mem)).elim (fun same => same ▸ key) (keys' e)
    refine ⟨sorted, ?_⟩
    unfold placeAll at rest ⊢
    rw [List.foldlM_cons, first]
    exact rest

theorem sorted_of_alike (alike : Alike (ws.map (·.1))) : ∃ sorted, sortEntries ws = .ok sorted := by
  generalize keys : ws.map (·.1) = ks at alike
  cases alike with
  | texts all =>
    apply placeAll_ok (P := fun k => k.isText = true) _ _ (List.forall_mem_nil _)
    · exact fun k l text text' => ⟨_, keyBefore_text text text'⟩
    · exact fun w mem => all _ (keys ▸ List.mem_map_of_mem mem)
  | numbers all =>
    apply placeAll_ok (P := Numeric) _ _ (List.forall_mem_nil _)
    · exact fun k l numeric numeric' => numeric.keyBefore numeric'
    · exact fun w mem => all _ (keys ▸ List.mem_map_of_mem mem)
  | null =>
    obtain ⟨w, rfl, null⟩ := List.map_eq_singleton_iff.mp keys
    exact ⟨[w], rfl⟩

theorem keyText_of_alike {ks : List Value} (alike : Alike ks) : ∀ k ∈ ks, ∃ gs, keyText k = .ok gs := by
  intro k mem
  cases alike with
  | texts all => exact keyText_text (all k mem)
  | numbers all => exact (all k mem).keyText
  | null =>
    rw [List.mem_singleton.mp mem]
    exact ⟨_, rfl⟩

-- A value that can be written with its keys in order: its parts can, the keys of its maps are of one kind, and
-- no whole number in it has more digits than are converted.
inductive Orderly : Value → Prop where
  | null : Orderly .null
  | bool (b : Bool) : Orderly (.bool b)
  | int {n : Int} (short : Number.Short n) : Orderly (.int n)
  | float (x : Float) : Orderly (.float x)
  | text (s : String) : Orderly (.text s)
  | torn (t : Text.Torn) : Orderly (.torn t)
  | list {xs : List Value} (items : ∀ x ∈ xs, Orderly x) : Orderly (.list xs)
  | tuple {xs : List Value} (items : ∀ x ∈ xs, Orderly x) : Orderly (.tuple xs)
  | map {es : List (Value × Value)} (keys : Alike (es.map (·.1))) (values : ∀ e ∈ es, Orderly e.2) :
      Orderly (.map es)

variable {v : Value} {xs : List Value} {es : List (Value × Value)}

theorem orderly_list : Orderly (.list xs) ↔ ∀ x ∈ xs, Orderly x := by
  constructor
  · intro orderly
    cases orderly with
    | list items => exact items
  · exact .list

theorem orderly_map : Orderly (.map es) ↔ Alike (es.map (·.1)) ∧ ∀ e ∈ es, Orderly e.2 := by
  constructor
  · intro orderly
    cases orderly with
    | map keys values => exact ⟨keys, values⟩
  · exact fun ⟨keys, values⟩ => .map keys values

theorem Plain.orderly (plain : Plain v) : Orderly v := by
  induction plain with
  | null => exact .null
  | bool b => exact .bool b
  | int short => exact .int short
  | float x => exact .float x
  | text s => exact .text s
  | torn t => exact .torn t
  | list _ ih => exact .list ih
  | map keys _ ih =>
    refine .map (.texts fun k mem => ?_) ih
    obtain ⟨e, there, rfl⟩ := List.mem_map.mp mem
    exact keys e there

/-- What an orderly value is written as. -/
theorem Orderly.written (orderly : Orderly v) : ∃ cs, chars canonical v = .ok cs := by
  induction orderly with
  | null => exact ⟨_, rfl⟩
  | bool b => exact ⟨_, rfl⟩
  | int _ => exact ⟨_, rfl⟩
  | float x => exact ⟨_, rfl⟩
  | text s => exact ⟨_, rfl⟩
  | torn t => exact ⟨_, rfl⟩
  | list _ ih =>
    obtain ⟨css, all⟩ := charsOfAll_ok canonical ih
    rw [chars, all]
    exact ⟨_, rfl⟩
  | tuple _ ih =>
    obtain ⟨css, all⟩ := charsOfAll_ok canonical ih
    rw [chars, all]
    exact ⟨_, rfl⟩
  | map keys _ ih =>
    obtain ⟨ws, all⟩ := charsOfEntries_ok canonical ih
    rw [← keys_written (charsOfEntries_iff.mp all)] at keys
    obtain ⟨sorted, order⟩ := sorted_of_alike keys
    have perm := placeAll_perm order
    rw [List.append_nil] at perm
    -- The members are the entries in another order, so their keys can be written, too.
    exact map_written canonical all order fun w mem =>
      keyText_of_alike keys w.1 (List.mem_map_of_mem (perm.mem_iff.mp mem))

theorem areShowable_iff : Value.areShowable xs ↔ ∀ x ∈ xs, x.isShowable := by
  induction xs with
  | nil => exact iff_of_true rfl (List.forall_mem_nil _)
  | cons x xs ih => rw [Value.areShowable, Bool.and_eq_true, ih, List.forall_mem_cons]

theorem entriesShowable_iff :
    Value.entriesShowable es ↔ ∀ e ∈ es, e.1.isShowable ∧ e.2.isShowable := by
  induction es with
  | nil => exact iff_of_true rfl (List.forall_mem_nil _)
  | cons e es ih =>
    obtain ⟨k, v⟩ := e
    rw [Value.entriesShowable, Bool.and_eq_true, Bool.and_eq_true, ih, List.forall_mem_cons]

theorem Numeric.showable {k : Value} (numeric : Numeric k) : k.isShowable := by
  cases numeric with
  | int short => exact isShowable_int.mpr short
  | _ => rfl

theorem Alike.showable {ks : List Value} (alike : Alike ks) : ∀ k ∈ ks, k.isShowable := by
  intro k mem
  cases alike with
  | texts all =>
    obtain ⟨gs, rfl⟩ := Value.exists_ofGlyphs (all k mem)
    rcases Value.ofGlyphs_cases gs with ⟨s, -, same⟩ | ⟨t, -, same⟩ <;> rw [same] <;> rfl
  | numbers all => exact (all k mem).showable
  | null =>
    rw [List.mem_singleton.mp mem]
    rfl

/-- No whole number in an orderly value has more digits than are converted. -/
theorem Orderly.showable (orderly : Orderly v) : v.isShowable := by
  induction orderly with
  | int short => exact isShowable_int.mpr short
  | list _ ih => exact areShowable_iff.mpr ih
  | tuple _ ih => exact areShowable_iff.mpr ih
  | map keys _ ih =>
    exact entriesShowable_iff.mpr fun e mem => ⟨keys.showable e.1 (List.mem_map_of_mem mem), ih e mem⟩
  | _ => rfl

mutual

/-- Only orderly values are written with their keys in order, as far as their numbers can be shown. -/
theorem orderly_of_written : ∀ {v : Value} {cs : List Char}, v.isShowable → chars canonical v = .ok cs →
    Orderly v
  | .null, _, _, _ => .null
  | .bool b, _, _, _ => .bool b
  | .int _, _, showable, _ => .int (isShowable_int.mp showable)
  | .float x, _, _, _ => .float x
  | .text s, _, _, _ => .text s
  | .torn t, _, _, _ => .torn t
  | .list xs, _, showable, written => by
    rw [chars] at written
    obtain ⟨css, all, -⟩ := bind_ok written
    exact .list (orderly_items (areShowable_iff.mp showable) all)
  | .tuple xs, _, showable, written => by
    rw [chars] at written
    obtain ⟨css, all, -⟩ := bind_ok written
    exact .tuple (orderly_items (areShowable_iff.mp showable) all)
  | .map es, _, showable, written => by
    have entries := entriesShowable_iff.mp showable
    rw [chars_map] at written
    obtain ⟨sorted, written, object⟩ := bind_ok written
    obtain ⟨ws, all, order⟩ := bind_ok written
    obtain ⟨ms, members, -⟩ := bind_ok object
    have order : sortEntries ws = .ok sorted := order
    have perm := placeAll_perm order
    rw [List.append_nil] at perm
    have same := keys_written (charsOfEntries_iff.mp all)
    have keys : ∀ w ∈ ws, w.1.isText ∨ Numeric w.1 ∨ w.1 = .null := by
      intro w mem
      obtain ⟨m, -, member⟩ := mapM_each members w (perm.mem_iff.mpr mem)
      obtain ⟨gs, key, -⟩ := bind_ok member
      obtain ⟨e, there, here⟩ := List.mem_map.mp (same ▸ List.mem_map_of_mem mem)
      exact keyText_ok (here ▸ (entries e there).1) key
    have alike := alike_of_sorted order keys
    rw [same] at alike
    exact .map alike (orderly_values (fun e mem => (entries e mem).2) all)
  | .bytes _, _, _, written => by cases written
  | .set _, _, _, written => by cases written
  | .date _, _, _, written => by cases written
  | .moment _, _, _, written => by cases written

theorem orderly_items : ∀ {xs : List Value} {css : List (List Char)}, (∀ x ∈ xs, x.isShowable) →
    charsOfAll canonical xs = .ok css → ∀ x ∈ xs, Orderly x
  | [], _, _, _ => List.forall_mem_nil _
  | x :: xs, _, showable, written => by
    obtain ⟨head, tail⟩ := List.forall_mem_cons.mp showable
    rw [charsOfAll] at written
    obtain ⟨cs, first, written⟩ := bind_ok written
    obtain ⟨css, rest, -⟩ := bind_ok written
    exact List.forall_mem_cons.mpr ⟨orderly_of_written head first, orderly_items tail rest⟩

theorem orderly_values : ∀ {es : List (Value × Value)} {ws : List (Value × List Char)},
    (∀ e ∈ es, e.2.isShowable) → charsOfEntries canonical es = .ok ws → ∀ e ∈ es, Orderly e.2
  | [], _, _, _ => List.forall_mem_nil _
  | (k, v) :: es, _, showable, written => by
    obtain ⟨head, tail⟩ := List.forall_mem_cons.mp showable
    rw [charsOfEntries] at written
    obtain ⟨cs, first, written⟩ := bind_ok written
    obtain ⟨ws, rest, -⟩ := bind_ok written
    exact List.forall_mem_cons.mpr ⟨orderly_of_written head first, orderly_values tail rest⟩

end

/-- A value that can be shown has a canonical text exactly if it is orderly, and no other value is. -/
theorem canonical_ok_iff : v.isShowable ∧ (∃ cs, chars canonical v = .ok cs) ↔ Orderly v :=
  ⟨fun ⟨showable, _, written⟩ => orderly_of_written showable written,
    fun orderly => ⟨orderly.showable, orderly.written⟩⟩

end Kitchen.Json

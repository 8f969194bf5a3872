import Kitchen.Proofs.Json.Strings
import Kitchen.Proofs.Json.Writable
import Kitchen.Proofs.Number.Digits

namespace Kitchen.Json

-- A value that a JSON text can stand for. No whole number in it has more digits than are converted.
inductive Plain : Value → Prop where
  | null : Plain .null
  | bool (b : Bool) : Plain (.bool b)
  | int {n : Int} (short : Number.Short n) : Plain (.int n)
  | float (x : Float) : Plain (.float x)
  | text (s : String) : Plain (.text s)
  | torn (t : Text.Torn) : Plain (.torn t)
  | list {xs : List Value} (items : ∀ x ∈ xs, Plain x) : Plain (.list xs)
  | map {es : List (Value × Value)} (keys : ∀ e ∈ es, e.1.isText) (values : ∀ e ∈ es, Plain e.2) :
      Plain (.map es)

theorem Plain.printable {v : Value} (plain : Plain v) : Printable v := by
  induction plain with
  | null => exact printable_null
  | bool b => exact printable_bool b
  | int _ => exact printable_int _
  | float x => exact printable_float x
  | text s => exact printable_text s
  | torn t => exact printable_torn t
  | list _ ih => exact printable_list ih
  | map keys _ ih => exact printable_map fun e mem => ⟨keys e mem, ih e mem⟩

theorem Plain.writable {v : Value} (plain : Plain v) : Writable v :=
  plain.printable spaced

theorem Plain.ofGlyphs (gs : List Text.Glyph) : Plain (.ofGlyphs gs) := by
  rcases Value.ofGlyphs_cases gs with ⟨s, -, same⟩ | ⟨t, -, same⟩ <;> rw [same]
  · exact .text s
  · exact .torn t

-- A plain value without floats, whose maps have each key once. No two halves of one character stand side by
-- side in its texts: there is no such text in a JSON document.
inductive Exact : Value → Prop where
  | null : Exact .null
  | bool (b : Bool) : Exact (.bool b)
  | int {n : Int} (short : Number.Short n) : Exact (.int n)
  | text (s : String) : Exact (.text s)
  | torn {t : Text.Torn} (apart : Apart t.glyphs) : Exact (.torn t)
  | list {xs : List Value} (items : ∀ x ∈ xs, Exact x) : Exact (.list xs)
  | map {es : List (Value × Value)} (keys : ∀ e ∈ es, e.1.isText) (distinct : (es.map (·.1)).Nodup)
      (names : ∀ e ∈ es, Exact e.1) (values : ∀ e ∈ es, Exact e.2) : Exact (.map es)

theorem exact_ofGlyphs {gs : List Text.Glyph} : Exact (.ofGlyphs gs) ↔ Apart gs := by
  rcases Value.ofGlyphs_cases gs with ⟨s, rfl, same⟩ | ⟨t, rfl, same⟩ <;> rw [same]
  · exact iff_of_true (.text s) (apart_ofChars s.toList)
  · constructor
    · intro exact
      cases exact with
      | torn apart => exact apart
    · exact .torn

/-- Shown, an exact value is exact. -/
theorem Exact.shown {v : Value} (exact : Exact v) : Exact v.shown := by
  cases exact with
  | torn apart => exact exact_ofGlyphs.mpr apart
  | _ => exact exact_ofGlyphs.mpr (apart_ofChars _)

theorem exact_list {xs : List Value} : Exact (.list xs) ↔ ∀ x ∈ xs, Exact x := by
  constructor
  · intro exact
    cases exact with
    | list items => exact items
  · exact .list

theorem exact_map {es : List (Value × Value)} :
    Exact (.map es) ↔ Keyed es ∧ ∀ e ∈ es, Exact e.1 ∧ Exact e.2 := by
  constructor
  · intro exact
    cases exact with
    | map keys distinct names values =>
      exact ⟨⟨keys, distinct⟩, fun e mem => ⟨names e mem, values e mem⟩⟩
  · rintro ⟨⟨keys, distinct⟩, entries⟩
    exact .map keys distinct (fun e mem => (entries e mem).1) fun e mem => (entries e mem).2

theorem Exact.plain {v : Value} (exact : Exact v) : Plain v := by
  induction exact with
  | null => exact .null
  | bool b => exact .bool b
  | int short => exact .int short
  | text s => exact .text s
  | torn _ => exact .torn _
  | list _ ih => exact .list ih
  | map keys _ _ _ _ ih => exact .map keys ih

def PlainEntry (e : Value × Value) : Prop :=
  e.1.isText ∧ Plain e.2

theorem plain_map {es : List (Value × Value)} (entries : ∀ e ∈ es, PlainEntry e) : Plain (.map es) :=
  .map (fun e mem => (entries e mem).1) fun e mem => (entries e mem).2

theorem insert_plain {k v : Value} {es : List (Value × Value)} (key : k.isText) (plain : Plain v)
    (entries : ∀ e ∈ es, PlainEntry e) : ∀ e ∈ Value.insert k v es, PlainEntry e := by
  induction es with
  | nil => exact List.forall_mem_singleton.mpr ⟨key, plain⟩
  | cons first rest ih =>
    obtain ⟨k', v'⟩ := first
    obtain ⟨head, tail⟩ := List.forall_mem_cons.mp entries
    unfold Value.insert
    split
    · exact List.forall_mem_cons.mpr ⟨⟨head.1, plain⟩, tail⟩
    · exact List.forall_mem_cons.mpr ⟨head, ih tail⟩

variable {cs left : List Char} {v : Value}

theorem natOf_eq (ds : List Char) : natOf ds = Number.ofDigits (ds.map fun c => c.toNat - 48) := by
  unfold natOf Number.ofDigits
  rw [List.foldl_map]

theorem digit_lt {c : Char} (digit : isDigit c) : c.toNat - 48 < 10 := by
  simp only [isDigit, Bool.and_eq_true, decide_eq_true_eq] at digit
  have most : c.toNat ≤ '9'.toNat := Char.le_def.mp digit.2
  have nine : '9'.toNat = 57 := rfl
  omega

theorem natOf_lt {ds : List Char} (digits : ∀ c ∈ ds, isDigit c) : natOf ds < Number.tenTo ds.length := by
  have same : (ds.map fun c => c.toNat - 48).length = ds.length := List.length_map _
  rw [natOf_eq, ← same]
  apply Number.ofDigits_lt
  intro d mem
  obtain ⟨c, there, rfl⟩ := List.mem_map.mp mem
  exact digit_lt (digits c there)

theorem wholePart_digits {ds : List Char} (h : wholePart? cs = some (ds, left)) :
    ∀ c ∈ ds, isDigit c := by
  unfold wholePart? at h
  split at h
  · cases h
    exact List.forall_mem_singleton.mpr (by decide)
  · split at h
    · cases h
      exact fun c mem => List.all_eq_true.mp List.all_takeWhile c mem
    · cases h
  · cases h

theorem number_plain (h : number cs = .ok (v, left)) : Plain v := by
  unfold number at h
  split at h
  split at h
  · cases h
  · next ds rest whole =>
    split at h
    dsimp only at h
    split at h
    · split at h
      · cases h
      · next few =>
        cases h
        have bound := natOf_lt (wholePart_digits whole)
        exact .int (Number.short_signed bound (Nat.le_of_not_lt few))
    · cases h
      exact .float _

theorem word_plain (h : word? cs = some (v, left)) : Plain v := by
  unfold word? at h
  obtain ⟨w, found, eq⟩ := Option.map_eq_some_iff.mp h
  cases eq
  have mem := List.mem_of_find?_eq_some found
  simp only [words, List.mem_cons, List.not_mem_nil, or_false] at mem
  rcases mem with rfl | rfl | rfl | rfl | rfl | rfl
  · exact .null
  · exact .bool true
  · exact .bool false
  · exact .float _
  · exact .float _
  · exact .float _

-- What is read within an amount of fuel is plain: values, items and members, which call each other.
structure Reads (fuel : Nat) : Prop where
  value : ∀ cs v left, value fuel cs = .ok (v, left) → Plain v
  items : ∀ cs vs left, items fuel cs = .ok (vs, left) → ∀ v ∈ vs, Plain v
  members : ∀ done cs es left, (∀ e ∈ done, PlainEntry e) →
    members fuel done cs = .ok (es, left) → ∀ e ∈ es, PlainEntry e

variable {fuel : Nat}

theorem Reads.next_value (reads : Reads fuel) (h : Json.value (fuel + 1) cs = .ok (v, left)) :
    Plain v := by
  cases cs with
  | nil =>
    rw [Json.value] at h
    cases h
  | cons c rest =>
    -- The first character decides: a text, a list, an object, or else a word or a number.
    rw [Json.value] at h
    split at h
    · obtain ⟨⟨s, left'⟩, -, h⟩ := bind_ok h
      cases h
      exact .ofGlyphs _
    · split at h
      · split at h
        · cases h
          exact .list (by simp)
        · obtain ⟨⟨xs, left'⟩, read, h⟩ := bind_ok h
          cases h
          exact .list (reads.items _ _ _ read)
      · split at h
        · split at h
          · cases h
            exact plain_map (by simp)
          · obtain ⟨⟨es, left'⟩, read, h⟩ := bind_ok h
            cases h
            exact plain_map (reads.members _ _ _ _ (by simp) read)
        · split at h
          · next found word =>
            cases h
            exact word_plain word
          · exact number_plain h

theorem Reads.next_items {vs : List Value} (reads : Reads fuel)
    (h : Json.items (fuel + 1) cs = .ok (vs, left)) : ∀ v ∈ vs, Plain v := by
  rw [Json.items] at h
  obtain ⟨⟨v, left'⟩, first, h⟩ := bind_ok h
  have head := reads.value _ _ _ first
  dsimp only at h
  split at h
  · cases h
    exact List.forall_mem_singleton.mpr head
  · obtain ⟨⟨vs', left''⟩, rest, h⟩ := bind_ok h
    have tail := reads.items _ _ _ rest
    cases h
    exact List.forall_mem_cons.mpr ⟨head, tail⟩
  · cases h

theorem Reads.next_members {done es : List (Value × Value)} (reads : Reads fuel)
    (entries : ∀ e ∈ done, PlainEntry e)
    (h : Json.members (fuel + 1) done cs = .ok (es, left)) : ∀ e ∈ es, PlainEntry e := by
  unfold Json.members at h
  split at h
  · obtain ⟨⟨k, left'⟩, -, h⟩ := bind_ok h
    dsimp only at h
    split at h
    · obtain ⟨⟨v, left''⟩, read, h⟩ := bind_ok h
      -- A key that stands in the object already takes the new value.
      have inserted : ∀ e ∈ Value.insert (.ofGlyphs k) v done, PlainEntry e :=
        insert_plain (Value.isText_ofGlyphs k) (reads.value _ _ _ read) entries
      dsimp only at h
      split at h
      · cases h
        exact inserted
      · exact reads.members _ _ _ _ inserted h
      · cases h
    · cases h
  · cases h

theorem reads_plain (fuel : Nat) : Reads fuel := by
  induction fuel with
  | zero =>
    constructor
    case value =>
      intro cs v left h
      rw [Json.value] at h
      cases h
    case items =>
      intro cs vs left h
      rw [Json.items] at h
      cases h
    case members =>
      intro done cs es left _ h
      rw [Json.members] at h
      cases h
  | succ fuel ih =>
    constructor
    case value => exact fun cs v left h => ih.next_value h
    case items => exact fun cs vs left h => ih.next_items h
    case members => exact fun done cs es left entries h => ih.next_members entries h

theorem readChars_plain (h : readChars cs = .ok v) : Plain v := by
  unfold readChars at h
  dsimp only at h
  split at h
  · cases h
  · obtain ⟨⟨v', left⟩, read, h⟩ := bind_ok h
    have plain := (reads_plain _).value _ _ _ read
    dsimp only at h
    split at h
    · cases h
      exact plain
    · cases h

end Kitchen.Json

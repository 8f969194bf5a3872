import Kitchen.Assembly
import Kitchen.Proofs.Dish.Detour
import Kitchen.Proofs.Json.Strings
import Kitchen.Proofs.Run.Pipeline
import Kitchen.Proofs.Value.Fields
import Mathlib.Data.Bool.AllAny

/-!
Bytes as hexadecimal digits. Two digits are written for each byte, and what stands between the pairs is passed
over when they are read, so the bytes come back; digits that are read in pairs come back in lower case. A text
with an odd number of digits is refused.
-/
namespace Kitchen.Transform

open Text (Glyph)

variable {c : Char} {ds : List Char} {d gs : List Glyph} {n : Nat} {bs : List UInt8}

-- The hexadecimal digits, letters in both cases.
def hexDigits : List Char := "0123456789abcdefABCDEF".toList

theorem hexValue_large (c : Char) (large : 128 ≤ c.toNat) : Text.hexValue? c = none := by
  have outside : ∀ high : Char, high.toNat < 128 → ¬ c ≤ high := by
    intro high small le
    have := Char.le_def.mp le
    have : c.toNat ≤ high.toNat := this
    omega
  unfold Text.hexValue?
  rw [if_neg (fun both => outside '9' (by decide) both.2), if_neg (fun both => outside 'f' (by decide) both.2),
    if_neg (fun both => outside 'F' (by decide) both.2)]

theorem isHexDigit_iff (c : Char) : isHexDigit c = true ↔ c ∈ hexDigits := by
  by_cases below : c.toNat < 128
  · have each : ∀ n < 128, isHexDigit (Char.ofNat n) = true ↔ Char.ofNat n ∈ hexDigits := by
      decide +kernel
    rw [← Char.ofNat_toNat c]
    exact each c.toNat below
  · have large : 128 ≤ c.toNat := Nat.le_of_not_lt below
    have small : ∀ e ∈ hexDigits, e.toNat < 128 := List.all_iff_forall_prop.mp (by decide)
    rw [isHexDigit, hexValue_large c large, Option.isSome_none]
    exact ⟨fun h => absurd h (by decide), fun mem => absurd (small c mem) below⟩

/-- The value of a digit is below sixteen, and the digit for it is the same letter or number in lower case. -/
theorem hexDigit_hexValue (digit : isHexDigit c = true) :
    ∃ n < 16, Text.hexValue? c = some n ∧ Text.hexDigit n = c.toLower := by
  have each : ∀ e ∈ hexDigits, ∃ n < 16, Text.hexValue? e = some n ∧ Text.hexDigit n = e.toLower :=
    List.all_iff_forall_prop.mp (by decide)
  exact each c ((isHexDigit_iff c).mp digit)

theorem isHexDigit_hexDigit (small : n < 16) : isHexDigit (Text.hexDigit n) = true := by
  rw [isHexDigit, Text.hexValue_hexDigit n small, Option.isSome_some]

def pair (b : UInt8) : List Char := Text.hexPadded b.toNat 2

theorem pair_eq (b : UInt8) : pair b = [Text.hexDigit (b.toNat / 16), Text.hexDigit (b.toNat % 16)] := by
  have byte := b.toNat_lt
  have high : b.toNat / 16 % 16 = b.toNat / 16 := Nat.mod_eq_of_lt (by omega)
  change [Text.hexDigit (b.toNat / 16 % 16), Text.hexDigit (b.toNat % 16)] = _
  rw [high]

theorem filter_pair (b : UInt8) : (pair b).filter isHexDigit = pair b := by
  have byte := b.toNat_lt
  rw [pair_eq]
  apply List.filter_eq_self.mpr
  intro c mem
  rcases List.mem_pair.mp mem with rfl | rfl
  · exact isHexDigit_hexDigit (by omega)
  · exact isHexDigit_hexDigit (by omega)

theorem length_flatMap_pair (bs : List UInt8) : (bs.flatMap pair).length = 2 * bs.length := by
  induction bs with
  | nil => rfl
  | cons b bs ih =>
    rw [List.flatMap_cons, List.length_append, ih, pair_eq, List.length_cons]
    simp only [List.length_cons, List.length_nil]
    omega

/-- The pairs of bytes are read as these bytes. -/
theorem pairBytes_flatMap (bs : List UInt8) : pairBytes (bs.flatMap pair) = bs := by
  induction bs with
  | nil => rfl
  | cons b bs ih =>
    have byte := b.toNat_lt
    have high := Text.hexValue_hexDigit (b.toNat / 16) (by omega)
    have low := Text.hexValue_hexDigit (b.toNat % 16) (by omega)
    have whole : 16 * (b.toNat / 16) + b.toNat % 16 = b.toNat := by omega
    rw [List.flatMap_cons, pair_eq]
    simp only [List.cons_append, List.nil_append, pairBytes, high, low, Option.getD_some, whole, ih,
      UInt8.ofNat_toNat]

/-- Digits that are read in pairs are written again in lower case. -/
theorem flatMap_pairBytes (digits : ∀ c ∈ ds, isHexDigit c = true) (even : ds.length % 2 = 0) :
    (pairBytes ds).flatMap pair = ds.map Char.toLower := by
  -- The induction takes two digits at a time, as the reading does.
  induction ds using pairBytes.induct with
  | case1 a b rest ih =>
    obtain ⟨x, small, value, lower⟩ := hexDigit_hexValue (digits a List.mem_cons_self)
    obtain ⟨y, small', value', lower'⟩ :=
      hexDigit_hexValue (digits b (List.mem_cons_of_mem a List.mem_cons_self))
    have later := ih (fun c mem => digits c (List.mem_cons_of_mem a (List.mem_cons_of_mem b mem)))
      (by simp only [List.length_cons] at even; omega)
    have byte : (UInt8.ofNat (16 * x + y)).toNat = 16 * x + y :=
      UInt8.toNat_ofNat_of_lt (show 16 * x + y < 256 by omega)
    have high : (16 * x + y) / 16 = x := by omega
    have low : (16 * x + y) % 16 = y := by omega
    simp only [pairBytes, value, value', Option.getD_some, List.flatMap_cons, pair_eq, byte, high, low, lower,
      lower', later, List.map_cons, List.cons_append, List.nil_append]
  | case2 ds short =>
    -- Less than two digits are none, since their number is even.
    cases ds with
    | nil => rfl
    | cons a ds =>
      cases ds with
      | nil => simp at even
      | cons b rest => exact absurd rfl (short a b rest)

/-- What is read part by part is read of what stands between the parts as well. -/
theorem read_intercalate {α β : Type} (read : List α → List β) (empty : read [] = [])
    (append : ∀ xs ys, read (xs ++ ys) = read xs ++ read ys) (between : List α) (parts : List (List α)) :
    read (between.intercalate parts) = (read between).intercalate (parts.map read) := by
  induction parts with
  | nil => exact empty
  | cons first rest ih =>
    cases rest with
    | nil => rw [List.map_singleton, List.intercalate_singleton, List.intercalate_singleton]
    | cons second rest =>
      rw [List.intercalate_cons_cons, append, append, ih, List.map_cons, List.map_cons, List.map_cons,
        List.intercalate_cons_cons]

theorem nil_intercalate {α : Type} (parts : List (List α)) : [].intercalate parts = parts.flatten := by
  induction parts with
  | nil => rfl
  | cons first rest ih =>
    cases rest with
    | nil => rw [List.intercalate_singleton, List.flatten_singleton]
    | cons second rest => rw [List.intercalate_cons_cons, ih, List.append_nil, ← List.flatten_cons]

def written (d : List Glyph) (bs : List UInt8) : List Glyph :=
  d.intercalate (bs.map fun b => Glyph.ofChars (pair b))

theorem written_ofText (d : String) (bs : List UInt8) :
    written (Glyph.ofText d) bs = Glyph.ofChars (encodeBytes d.toList bs) := by
  have each := read_intercalate Glyph.ofChars rfl (fun _ _ => List.map_append) d.toList (bs.map pair)
  rw [List.map_map] at each
  exact each.symm

/-- Without anything between them, pairs are written one after the other. -/
theorem written_nil (bs : List UInt8) : written [] bs = Glyph.ofChars (bs.flatMap pair) := by
  have joined : encodeBytes [] bs = bs.flatMap pair := nil_intercalate _
  rw [← joined]
  exact written_ofText "" bs

theorem hexItem_byte (b : UInt8) : hexItem (.int b.toNat) = .ok (pair b) := by
  have each : ∀ n < 256, hexText (n : Nat) = Text.hexPadded n 2 := by decide +kernel
  exact congrArg Except.ok (each b.toNat b.toNat_lt)

theorem mapM_hexItem (bs : List UInt8) :
    (bs.map fun b => Value.int b.toNat).mapM hexItem = .ok (bs.map pair) := by
  induction bs with
  | nil => rfl
  | cons b bs ih =>
    rw [List.map_cons, List.mapM_cons, hexItem_byte, ih]
    rfl

/-- Bytes are written in pairs with any text between them. -/
theorem toHex_bytes (d : List Glyph) (bs : List UInt8) :
    toHex.run (.bytes bs) [.ofGlyphs d] = .ok (.ofGlyphs (written d bs)) := by
  rcases Value.ofGlyphs_cases d with ⟨s, rfl, same⟩ | ⟨t, rfl, same⟩
  · rw [same, written_ofText, Value.ofGlyphs_ofChars]
    rfl
  · rw [same]
    change ((bs.map fun b => Value.int b.toNat).mapM hexItem >>= fun parts =>
      Except.ok (Value.ofGlyphs (t.glyphs.intercalate (parts.map Glyph.ofChars)))) = _
    rw [mapM_hexItem]
    change Except.ok (Value.ofGlyphs (t.glyphs.intercalate ((bs.map pair).map Glyph.ofChars))) = _
    rw [List.map_map]
    rfl

-- The digits in a text.
def digits (gs : List Glyph) : List Char :=
  (gs.filterMap Glyph.char?).filter isHexDigit

/-- A text is read as the pairs of the digits in it. -/
theorem fromHex_glyphs (gs : List Glyph) : fromHex.run (.ofGlyphs gs) [] =
    if (digits gs).length % 2 = 0 then .ok (.bytes (pairBytes (digits gs)))
    else .error (.refused (Glyph.ofText s!"From Hex: odd number of hex digits ({(digits gs).length})")) := by
  have chars : fromHex.run (.ofGlyphs gs) [] = Value.bytes <$> decodeHex (gs.filterMap Glyph.char?) := by
    rcases Value.ofGlyphs_cases gs with ⟨s, rfl, same⟩ | ⟨t, rfl, same⟩
    · rw [same, Glyph.ofText, Glyph.filterMap_ofChars]
      rfl
    · rw [same]
      rfl
  rw [chars]
  unfold decodeHex digits
  dsimp only
  split <;> rfl

theorem digits_append (gs hs : List Glyph) : digits (gs ++ hs) = digits gs ++ digits hs := by
  unfold digits
  rw [List.filterMap_append, List.filter_append]

theorem digits_pair (b : UInt8) : digits (Glyph.ofChars (pair b)) = pair b := by
  unfold digits
  rw [Glyph.filterMap_ofChars, filter_pair]

theorem digits_free (free : ∀ c, .char c ∈ d → isHexDigit c = false) : digits d = [] := by
  apply List.filter_eq_nil_iff.mpr
  intro c mem
  obtain ⟨g, there, char⟩ := List.mem_filterMap.mp mem
  cases g with
  | char c' =>
    cases char
    rw [free c there]
    decide
  | half e => cases char

/-- Whatever stands between the pairs, if there are no digits in it, only the pairs are left of it. -/
theorem digits_written (free : ∀ c, .char c ∈ d → isHexDigit c = false) (bs : List UInt8) :
    digits (written d bs) = bs.flatMap pair := by
  have each : digits ∘ (fun b => Glyph.ofChars (pair b)) = pair := funext digits_pair
  unfold written
  rw [read_intercalate digits rfl digits_append, digits_free free, nil_intercalate, List.map_map, each,
    List.flatMap_def]

/-- What is written with a text between the pairs that has no digits is read again. -/
theorem fromHex_written (free : ∀ c, .char c ∈ d → isHexDigit c = false) (bs : List UInt8) :
    fromHex.run (.ofGlyphs (written d bs)) [] = .ok (.bytes bs) := by
  have even : (bs.flatMap pair).length % 2 = 0 := by
    rw [length_flatMap_pair]
    omega
  rw [fromHex_glyphs, digits_written free, if_pos even, pairBytes_flatMap]

-- A recipe that writes bytes as digits with a text between the pairs, and reads the digits again.
def thereAndBack (d : List Glyph) : Value :=
  .list [.map [(.text "op", .text "To Hex"), (.text "args", .list [.ofGlyphs d])],
    .map [(.text "op", .text "From Hex")]]

def writing (d : List Glyph) : Operation :=
  ⟨"To Hex", [.ofGlyphs d], "byteArray", "string", false, false, some toHex⟩

def reading : Operation :=
  ⟨"From Hex", [], "string", "byteArray", false, false, some fromHex⟩

theorem writing_entry (d : List Glyph) :
    Entry.ofValue (.map [(.text "op", .text "To Hex"), (.text "args", .list [.ofGlyphs d])]) =
      .ok ⟨.text "To Hex", [.ofGlyphs d], false, false⟩ := by
  simp [Entry.ofValue, Entry.flag, Value.field?_cons, Value.field?_nil, Value.truthy, Value.isText]

theorem reading_entry :
    Entry.ofValue (.map [(.text "op", .text "From Hex")]) = .ok ⟨.text "From Hex", [], false, false⟩ := by
  simp [Entry.ofValue, Entry.flag, Value.field?_cons, Value.field?_nil, Value.truthy, Value.isText]

theorem writing_operation (d : List Glyph) :
    Assembly.operation .standard ⟨.text "To Hex", [.ofGlyphs d], false, false⟩ = .ok (writing d) := by
  rfl

theorem reading_operation :
    Assembly.operation .standard ⟨.text "From Hex", [], false, false⟩ = .ok reading := by
  rfl

theorem thereAndBack_made (d : List Glyph) :
    Assembly.ofConfig .standard (thereAndBack d) = .ok [writing d, reading] := by
  have read : Definition.ofConfig (.text "inline") (thereAndBack d) =
      .ok ⟨.text "inline", .text "1.0", .text "", .string,
        [⟨.text "To Hex", [.ofGlyphs d], false, false⟩, ⟨.text "From Hex", [], false, false⟩], []⟩ := by
    unfold Definition.ofConfig thereAndBack
    dsimp only
    rw [List.mapM_cons, writing_entry, List.mapM_cons, reading_entry]
    rfl
  unfold Assembly.ofConfig Assembly.operations
  rw [read]
  dsimp only [bind, Except.bind]
  rw [List.mapM_cons, writing_operation, List.mapM_cons, reading_operation]
  rfl

theorem writing_ordinary (d : List Glyph) : (writing d).primitive? = none := by
  change Primitive.ofName? "To Hex" = none
  decide +kernel

theorem reading_ordinary : reading.primitive? = none := by
  decide +kernel

theorem writing_produce (d : List Glyph) (bs : List UInt8) :
    (writing d).produce (.bytes bs) = .ok ⟨.ofGlyphs (written d bs), "string"⟩ :=
  Operation.produce_of_run (writing_ordinary d) rfl (toHex_bytes d bs)
    (Dish.set_isText (Value.isText_ofGlyphs (written d bs)))

theorem reading_produce {v : Value} (made : fromHex.run v [] = .ok (.bytes bs)) :
    reading.produce v = .ok ⟨.bytes bs, "byteArray"⟩ := by
  have set : Dish.set (.bytes bs) "byteArray" = .ok ⟨.bytes bs, "byteArray"⟩ := by
    have known : Dish.kindOf "byteArray" = .ok .byteArray := Dish.kindOf_of_kind (kind_of_tag .byteArray)
    unfold Dish.set
    rw [known]
    rfl
  exact Operation.produce_of_run reading_ordinary rfl made set

/-- A dish of text gives the bytes of the text that it stands for. -/
theorem get_encoded {v : Value} {s : String}
    (text : Dish.get ⟨v, "string"⟩ "string" = .ok (.text s, ⟨v, "string"⟩)) :
    ∃ read, Dish.get ⟨v, "string"⟩ "byteArray" = .ok (.bytes (Text.Utf8.encode s.toList), read) := by
  have stands : Dish.valueOrEmpty ⟨v, "string"⟩ = .text s := ((Dish.get_eq text).2).symm
  by_cases none : v = .null
  · -- Without a value the dish stands for the empty text, and for no bytes.
    subst none
    obtain rfl : "" = s := Value.text.inj stands
    exact ⟨_, Dish.get_null "string" .byteArray⟩
  · rw [Dish.valueOrEmpty_some none] at stands
    rw [stands]
    exact ⟨_, Dish.get_text_bytes s⟩

theorem thereAndBack_flows (free : ∀ c, .char c ∈ d → isHexDigit c = false) {v : Value} {s : String}
    (text : Dish.get ⟨v, "string"⟩ "string" = .ok (.text s, ⟨v, "string"⟩)) :
    Run.Flows [writing d, reading] ⟨v, "string"⟩ ⟨.bytes (Text.Utf8.encode s.toList), "byteArray"⟩ := by
  obtain ⟨read, get⟩ := get_encoded text
  apply Run.Flows.onward (writing_ordinary d) rfl rfl get (writing_produce d _)
  have some : Value.ofGlyphs (written d (Text.Utf8.encode s.toList)) ≠ .null := by
    intro null
    have isText := Value.isText_ofGlyphs (written d (Text.Utf8.encode s.toList))
    rw [null] at isText
    cases isText
  apply Run.Flows.onward reading_ordinary rfl rfl (Dish.get_own (k := .string) rfl)
  · rw [Dish.valueOrEmpty_some some]
    exact reading_produce (fromHex_written free _)
  · exact .still _

/-- Writing bytes as hexadecimal digits and reading the digits are inverse to each other. With any text
without such digits between the pairs, the bytes come back, and the recipe that does both leaves every text as
it was that halves do not stand in. Reading refuses exactly the texts with an odd number of digits; of all
others it gives the bytes that are written, with nothing in between, as the digits of the text in lower case. -/
theorem hex_inverse :
    (∀ d : List Glyph, (∀ c, .char c ∈ d → c ∉ hexDigits) →
      (∀ bs, ∃ gs, toHex.run (.bytes bs) [.ofGlyphs d] = .ok (.ofGlyphs gs) ∧
        fromHex.run (.ofGlyphs gs) [] = .ok (.bytes bs)) ∧
      ∃ ops, Assembly.ofConfig .standard (thereAndBack d) = .ok ops ∧
        ∀ v s, Dish.get ⟨v, "string"⟩ "string" = .ok (.text s, ⟨v, "string"⟩) →
          let ended := (Run.Machine.fresh ops ⟨v, "string"⟩ none).run 0
          ended.1 = .at ops.length ∧ ∃ d', ended.2.dish.get "string" = .ok (.text s, d')) ∧
    ∀ gs : List Glyph, let ds := (gs.filterMap Glyph.char?).filter (· ∈ hexDigits)
      ((∃ m, fromHex.run (.ofGlyphs gs) [] = .error (.refused m)) ↔ ds.length % 2 = 1) ∧
      (ds.length % 2 ≠ 1 → ∃ bs, fromHex.run (.ofGlyphs gs) [] = .ok (.bytes bs) ∧
        toHex.run (.bytes bs) [.text ""] = .ok (.text (String.ofList (ds.map Char.toLower)))) := by
  constructor
  · intro d apart
    have free : ∀ c, .char c ∈ d → isHexDigit c = false := by
      intro c mem
      rw [← Bool.not_eq_true, isHexDigit_iff]
      exact apart c mem
    refine ⟨fun bs => ⟨written d bs, toHex_bytes d bs, fromHex_written free bs⟩, _, thereAndBack_made d, ?_⟩
    intro v s text
    obtain ⟨stop, dish⟩ := Run.Machine.run_flows (thereAndBack_flows free text)
    refine ⟨stop, ⟨.text s, "string"⟩, ?_⟩
    rw [dish]
    exact Dish.get_bytes_text s
  · intro gs ds
    have same : digits gs = ds := by
      apply List.filter_congr
      intro c _
      rw [Bool.eq_iff_iff, isHexDigit_iff, decide_eq_true_iff]
    rw [fromHex_glyphs, same]
    by_cases even : ds.length % 2 = 0
    · have hexadecimal : ∀ c ∈ ds, isHexDigit c = true := by
        rw [← same]
        exact fun c mem => (List.mem_filter.mp mem).2
      rw [if_pos even]
      constructor
      · exact ⟨fun ⟨m, refused⟩ => (nomatch refused), fun odd => by omega⟩
      · intro _
        refine ⟨_, rfl, ?_⟩
        have empty : toHex.run (.bytes (pairBytes ds)) [.text ""] = _ := toHex_bytes [] (pairBytes ds)
        rw [empty, written_nil, flatMap_pairBytes hexadecimal even, Value.ofGlyphs_ofChars]
    · rw [if_neg even]
      exact ⟨⟨fun _ => by omega, fun _ => ⟨_, rfl⟩⟩, fun neither => by omega⟩

/-- With a comma and a blank between the pairs, a text beyond ASCII comes back from its digits. -/
theorem hex_inverse_spaced : (∀ c, .char c ∈ Glyph.ofText ", " → c ∉ hexDigits) ∧
    Dish.get ⟨.text "é", "string"⟩ "string" = .ok (.text "é", ⟨.text "é", "string"⟩) ∧
    ((Glyph.ofText "aB c").filterMap Glyph.char?).filter (· ∈ hexDigits) = ['a', 'B', 'c'] ∧
    (∃ m, fromHex.run (.text "aB c") [] = .error (.refused m)) ∧
    ∃ ops d', Assembly.ofConfig .standard (thereAndBack (Glyph.ofText ", ")) = .ok ops ∧
      ((Run.Machine.fresh ops ⟨.text "é", "string"⟩ none).run 0).2.dish.get "string" =
        .ok (.text "é", d') := by
  have apart : ∀ c, .char c ∈ Glyph.ofText ", " → c ∉ hexDigits := by
    intro c mem
    obtain ⟨c', there, same⟩ := List.mem_map.mp mem
    obtain rfl := Glyph.char.inj same
    have each : ∀ e ∈ ", ".toList, e ∉ hexDigits := List.all_iff_forall_prop.mp (by decide)
    exact each c' there
  have text : Dish.get ⟨.text "é", "string"⟩ "string" = .ok (.text "é", ⟨.text "é", "string"⟩) :=
    Dish.get_own (k := .string) rfl
  have digits : ((Glyph.ofText "aB c").filterMap Glyph.char?).filter (· ∈ hexDigits) = ['a', 'B', 'c'] := by
    decide +kernel
  obtain ⟨-, ops, made, returns⟩ := hex_inverse.1 (Glyph.ofText ", ") apart
  obtain ⟨-, d', get⟩ := returns (.text "é") "é" text
  have odd := (hex_inverse.2 (Glyph.ofText "aB c")).1
  rw [digits, Value.ofGlyphs_ofText] at odd
  exact ⟨apart, text, digits, odd.mpr rfl, ops, d', made, get⟩

def lonely : Glyph :=
  .half ⟨0xD800, by decide⟩

/-- A text that is one half alone cannot be written as bytes, so there the recipe does not come to its end. -/
theorem hex_inverse_torn : (∀ c, .char c ∈ Glyph.ofText " " → c ∉ hexDigits) ∧
    Dish.get ⟨.ofGlyphs [lonely], "string"⟩ "string" =
      .ok (.ofGlyphs [lonely], ⟨.ofGlyphs [lonely], "string"⟩) ∧
    ∃ ops, Assembly.ofConfig .standard (thereAndBack (Glyph.ofText " ")) = .ok ops ∧
      ((Run.Machine.fresh ops ⟨.ofGlyphs [lonely], "string"⟩ none).run 0).1 =
        .broken ⟨"To Hex", 0, .misuse (.unencodable 0 [⟨0xD800, by decide⟩])⟩ := by
  have apart : ∀ c, .char c ∈ Glyph.ofText " " → c ∉ hexDigits := by
    intro c mem
    obtain rfl := Glyph.char.inj (List.mem_singleton.mp mem)
    decide
  refine ⟨apart, Dish.get_own (k := .string) rfl, _, thereAndBack_made _, ?_⟩
  decide +kernel

end Kitchen.Transform

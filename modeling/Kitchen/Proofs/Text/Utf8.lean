import Kitchen.Text.Utf8

namespace Kitchen.Text.Utf8

variable {acc low high owed n : Nat} {b : UInt8} {rest : List UInt8}

theorem toNat_byte (small : n < 256) : (UInt8.ofNat n).toNat = n :=
  UInt8.toNat_ofNat_of_lt small

/-- A continuation byte in its range adds six bits. -/
theorem tail_byte (small : n < 64) (above : low ≤ 0x80 + n) (below : 0x80 + n ≤ high) :
    tail acc low high (owed + 1) (.ofNat (0x80 + n) :: rest) =
      tail (acc * 64 + n) 0x80 0xBF owed rest := by
  have value : (UInt8.ofNat (0x80 + n)).toNat = 0x80 + n := toNat_byte (by omega)
  rw [tail, value, if_pos ⟨above, below⟩, Nat.add_sub_cancel_left]

/-- A first byte `lead + n` that promises `owed` bytes, where they come, begins a character. -/
theorem first_promised {lead k : Nat} (big : 0x80 ≤ lead + n) (small : lead + n < 256)
    (promised : promise (lead + n) = some (owed, low, high))
    (bits : (lead + n) % Nat.pow 2 (6 - owed) = n) (read : tail n low high owed rest = (k, 0)) :
    first (.ofNat (lead + n)) rest = (some (Char.ofNat k), owed) := by
  unfold first
  rw [toNat_byte small, if_neg (Nat.not_lt.mpr big), promised]
  dsimp only
  rw [bits, read]
  rfl

theorem promise_two (above : 2 ≤ n) (below : n < 32) : promise (0xC0 + n) = some (1, 0x80, 0xBF) :=
  if_pos ⟨by omega, by omega⟩

/-- After the first of three bytes, the second one has its range, less the numbers that two bytes can
write and the surrogates. -/
theorem promise_three (small : n < 16) : ∃ low high, promise (0xE0 + n) = some (2, low, high) ∧
    ∀ m < 64, (n = 0 → 32 ≤ m) → (n = 13 → m < 32) → low ≤ 0x80 + m ∧ 0x80 + m ≤ high := by
  unfold promise
  rw [if_neg (by omega)]
  by_cases short : n = 0
  · rw [if_pos (by omega)]
    exact ⟨_, _, rfl, by omega⟩
  · rw [if_neg (by omega)]
    by_cases surrogate : n = 13
    · rw [if_pos (by omega)]
      exact ⟨_, _, rfl, by omega⟩
    · rw [if_neg (by omega), if_pos (by omega)]
      exact ⟨_, _, rfl, by omega⟩

/-- After the first of four bytes, the second one has its range, less the numbers that three bytes can
write and those beyond the last character. -/
theorem promise_four (small : n ≤ 4) : ∃ low high, promise (0xF0 + n) = some (3, low, high) ∧
    ∀ m < 64, (n = 0 → 16 ≤ m) → (n = 4 → m < 16) → low ≤ 0x80 + m ∧ 0x80 + m ≤ high := by
  unfold promise
  rw [if_neg (by omega), if_neg (by omega), if_neg (by omega), if_neg (by omega)]
  by_cases short : n = 0
  · rw [if_pos (by omega)]
    exact ⟨_, _, rfl, by omega⟩
  · rw [if_neg (by omega)]
    by_cases last : n = 4
    · rw [if_neg (by omega), if_pos (by omega)]
      exact ⟨_, _, rfl, by omega⟩
    · rw [if_pos (by omega)]
      exact ⟨_, _, rfl, by omega⟩

theorem first_one (small : n < 0x80) : first (.ofNat n) rest = (some (Char.ofNat n), 0) := by
  unfold first
  rw [toNat_byte (by omega), if_pos small]

theorem first_two (above : 0x80 ≤ n) (below : n < 0x800) :
    first (.ofNat (0xC0 + n / 64)) (.ofNat (0x80 + n % 64) :: rest) = (some (Char.ofNat n), 1) := by
  have bits : (0xC0 + n / 64) % 32 = n / 64 := by omega
  refine first_promised (by omega) (by omega) (promise_two (by omega) (by omega)) bits ?_
  rw [tail_byte (by omega) (by omega) (by omega), tail]
  exact Prod.ext (by omega) rfl

theorem first_three (above : 0x800 ≤ n) (below : n < 0x10000)
    (valid : n < 0xD800 ∨ 0xDFFF < n) :
    first (.ofNat (0xE0 + n / 4096))
      (.ofNat (0x80 + n / 64 % 64) :: .ofNat (0x80 + n % 64) :: rest) =
        (some (Char.ofNat n), 2) := by
  obtain ⟨low, high, promised, range⟩ := promise_three (n := n / 4096) (by omega)
  have second := range (n / 64 % 64) (by omega) (by omega) (by omega)
  have bits : (0xE0 + n / 4096) % 16 = n / 4096 := by omega
  refine first_promised (by omega) (by omega) promised bits ?_
  rw [tail_byte (by omega) second.1 second.2, tail_byte (by omega) (by omega) (by omega), tail]
  exact Prod.ext (by omega) rfl

theorem first_four (above : 0x10000 ≤ n) (below : n < 0x110000) :
    first (.ofNat (0xF0 + n / 262144))
      (.ofNat (0x80 + n / 4096 % 64) :: .ofNat (0x80 + n / 64 % 64) :: .ofNat (0x80 + n % 64) ::
        rest) = (some (Char.ofNat n), 3) := by
  obtain ⟨low, high, promised, range⟩ := promise_four (n := n / 262144) (by omega)
  have second := range (n / 4096 % 64) (by omega) (by omega) (by omega)
  have bits : (0xF0 + n / 262144) % 8 = n / 262144 := by omega
  refine first_promised (by omega) (by omega) promised bits ?_
  rw [tail_byte (by omega) second.1 second.2, tail_byte (by omega) (by omega) (by omega),
    tail_byte (by omega) (by omega) (by omega), tail]
  exact Prod.ext (by omega) rfl

/-- The numbers of characters leave out the surrogates. -/
theorem toNat_valid (c : Char) : c.toNat < 0xD800 ∨ 0xDFFF < c.toNat ∧ c.toNat < 0x110000 :=
  c.valid

/-- What is written for a character is read as the character, whatever follows. -/
theorem first_encodeChar (c : Char) (rest : List UInt8) : ∃ b more, encodeChar c = b :: more ∧
    first b (more ++ rest) = (some c, more.length) := by
  have valid := toNat_valid c
  have back : Char.ofNat c.toNat = c := Char.ofNat_toNat c
  unfold encodeChar
  dsimp only
  -- From here on the character is a number that is no surrogate, and what counts is its size.
  generalize c.toNat = n at valid back
  rw [← back]
  by_cases one : n < 0x80
  · rw [if_pos one]
    exact ⟨_, _, rfl, first_one one⟩
  · rw [if_neg one]
    by_cases two : n < 0x800
    · rw [if_pos two]
      exact ⟨_, _, rfl, first_two (by omega) two⟩
    · rw [if_neg two]
      by_cases three : n < 0x10000
      · rw [if_pos three]
        exact ⟨_, _, rfl, first_three (by omega) three (by omega)⟩
      · rw [if_neg three]
        exact ⟨_, _, rfl, first_four (by omega) (by omega)⟩

/-- Reading takes back what writing gives. -/
theorem decode_encode (cs : List Char) : decode (encode cs) = cs := by
  induction cs with
  | nil => rw [encode, List.flatMap_nil, decode]
  | cons c cs ih =>
    -- Reading drops as many bytes as the first one promised, and comes to the next character.
    obtain ⟨b, more, encoded, read⟩ := first_encodeChar c (encode cs)
    have first : encode (c :: cs) = b :: (more ++ encode cs) := by
      rw [encode, List.flatMap_cons, encoded]
      rfl
    rw [first, decode, read]
    dsimp only
    rw [List.drop_left, ih]
    rfl

/-- A character is written as the bytes that stand for it in a string. -/
theorem encodeChar_eq (c : Char) : encodeChar c = String.utf8EncodeChar c := by
  have valid := toNat_valid c
  have second : ∀ m, 0x80 + m % 64 = m % 64 + 128 := fun m => Nat.add_comm _ _
  unfold encodeChar String.utf8EncodeChar
  rw [show c.val.toNat = c.toNat from rfl]
  dsimp only
  generalize c.toNat = n at valid
  by_cases one : n < 0x80
  · rw [if_pos one, if_pos (Nat.le_of_lt_succ one)]
  · rw [if_neg one, if_neg (fun le : n ≤ 0x7F => one (Nat.lt_succ_of_le le))]
    by_cases two : n < 0x800
    · have first : 0xC0 + n / 64 = n / 64 % 32 + 192 := by omega
      rw [if_pos two, if_pos (Nat.le_of_lt_succ two), first, second]
    · rw [if_neg two, if_neg (fun le : n ≤ 0x7FF => two (Nat.lt_succ_of_le le))]
      by_cases three : n < 0x10000
      · have first : 0xE0 + n / 4096 = n / 4096 % 16 + 224 := by omega
        rw [if_pos three, if_pos (Nat.le_of_lt_succ three), first, second, second]
      · have first : 0xF0 + n / 262144 = n / 262144 % 8 + 240 := by omega
        rw [if_neg three, if_neg (fun le : n ≤ 0xFFFF => three (Nat.lt_succ_of_le le)), first, second, second,
          second]

theorem valid_iff {bs : List UInt8} : bs.toByteArray.IsValidUTF8 ↔ ∃ cs, bs = encode cs := by
  have same : encode = fun cs => cs.flatMap String.utf8EncodeChar := by
    funext cs
    rw [encode, funext encodeChar_eq]
  rw [same]
  constructor
  · rintro ⟨cs, written⟩
    exact ⟨cs, List.toByteArray_inj.mp written⟩
  · rintro ⟨cs, rfl⟩
    exact ⟨cs, rfl⟩

/-- Broken characters are replaced for good: only what was valid is written again as it was read. -/
theorem encode_decode_iff {bs : List UInt8} :
    encode (decode bs) = bs ↔ bs.toByteArray.IsValidUTF8 := by
  rw [valid_iff]
  constructor
  · intro same
    exact ⟨decode bs, same.symm⟩
  · rintro ⟨cs, rfl⟩
    rw [decode_encode]

end Kitchen.Text.Utf8

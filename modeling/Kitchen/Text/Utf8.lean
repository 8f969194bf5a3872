namespace Kitchen.Text.Utf8

def encodeChar (c : Char) : List UInt8 :=
  let n := c.toNat
  if n < 0x80 then [.ofNat n]
  else if n < 0x800 then [.ofNat (0xC0 + n / 64), .ofNat (0x80 + n % 64)]
  else if n < 0x10000 then
    [.ofNat (0xE0 + n / 4096), .ofNat (0x80 + n / 64 % 64), .ofNat (0x80 + n % 64)]
  else
    [.ofNat (0xF0 + n / 262144), .ofNat (0x80 + n / 4096 % 64), .ofNat (0x80 + n / 64 % 64),
      .ofNat (0x80 + n % 64)]

def encode (s : List Char) : List UInt8 :=
  s.flatMap encodeChar

def promise (b : Nat) : Option (Nat × Nat × Nat) :=
  if 0xC2 ≤ b ∧ b ≤ 0xDF then some (1, 0x80, 0xBF)
  else if b = 0xE0 then some (2, 0xA0, 0xBF)
  else if b = 0xED then some (2, 0x80, 0x9F)
  else if 0xE1 ≤ b ∧ b ≤ 0xEF then some (2, 0x80, 0xBF)
  else if b = 0xF0 then some (3, 0x90, 0xBF)
  else if 0xF1 ≤ b ∧ b ≤ 0xF3 then some (3, 0x80, 0xBF)
  else if b = 0xF4 then some (3, 0x80, 0x8F)
  else none

-- Reads up to `owed` continuation bytes, the first of them between `low` and `high`: the number built so far,
-- and how many were missing.
def tail (acc low high : Nat) : Nat → List UInt8 → Nat × Nat
  | 0, _ => (acc, 0)
  | owed + 1, [] => (acc, owed + 1)
  | owed + 1, b :: rest =>
    if low ≤ b.toNat ∧ b.toNat ≤ high then tail (acc * 64 + (b.toNat - 0x80)) 0x80 0xBF owed rest
    else (acc, owed + 1)

def first (b : UInt8) (rest : List UInt8) : Option Char × Nat :=
  if b.toNat < 0x80 then (some (Char.ofNat b.toNat), 0)
  else match promise b.toNat with
    | none => (none, 0)
    | some (owed, low, high) =>
      match tail (b.toNat % Nat.pow 2 (6 - owed)) low high owed rest with
      | (n, 0) => (some (Char.ofNat n), owed)
      | (_, missing) => (none, owed - missing)

def replacement : Char := '\uFFFD'

def decode : List UInt8 → List Char
  | [] => []
  | b :: rest =>
    ((first b rest).1.getD replacement) :: decode (rest.drop (first b rest).2)
termination_by bs => bs.length
decreasing_by simp only [List.length_drop, List.length_cons]; omega

def decode? (bs : List UInt8) : Except Nat (List Char) :=
  go 0 bs
where
  go (place : Nat) : List UInt8 → Except Nat (List Char)
  | [] => .ok []
  | b :: rest =>
    match (first b rest).1 with
    | none => .error place
    | some c => (c :: ·) <$> go (place + 1 + (first b rest).2) (rest.drop (first b rest).2)
  termination_by bs => bs.length
  decreasing_by simp only [List.length_drop, List.length_cons]; omega

end Kitchen.Text.Utf8

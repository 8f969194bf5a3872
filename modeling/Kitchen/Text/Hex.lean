namespace Kitchen.Text

def hexDigit (n : Nat) : Char :=
  Nat.digitChar n

def hexPadded (n : Nat) : Nat → List Char
  | 0 => []
  | width + 1 => hexPadded (n / 16) width ++ [hexDigit (n % 16)]

def hexValue? (c : Char) : Option Nat :=
  if '0' ≤ c ∧ c ≤ '9' then some (c.toNat - 48)
  else if 'a' ≤ c ∧ c ≤ 'f' then some (c.toNat - 87)
  else if 'A' ≤ c ∧ c ≤ 'F' then some (c.toNat - 55)
  else none

def hexNumber? (cs : List Char) : Option Nat :=
  cs.foldlM (fun n c => (16 * n + ·) <$> hexValue? c) 0

end Kitchen.Text

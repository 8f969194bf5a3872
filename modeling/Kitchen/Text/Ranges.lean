namespace Kitchen.Text

-- Membership in a set of code points that is given by its boundaries in rising order: each one changes sides,
-- and below the first one a code point is outside.
def within (c : Nat) (bounds : List Nat) : Bool :=
  go false bounds
where
  go (inside : Bool) : List Nat → Bool
  | [] => inside
  | b :: rest => if c < b then inside else go (!inside) rest

end Kitchen.Text

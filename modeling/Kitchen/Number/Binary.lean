namespace Kitchen.Number

def twoTo (n : Nat) : Nat := Nat.pow 2 n

def tenTo (n : Nat) : Nat := Nat.pow 10 n

inductive Parts where
  | nan
  | infinite (negative : Bool)
  | finite (negative : Bool) (significand : Nat) (power : Int)
  deriving DecidableEq, Repr

def parts (x : Float) : Parts :=
  let bits := x.toBits.toNat
  let negative := decide (twoTo 63 ≤ bits)
  let exponent : Nat := bits / twoTo 52 % twoTo 11
  let fraction : Nat := bits % twoTo 52
  if exponent = 2047 then if fraction = 0 then .infinite negative else .nan
  else if exponent = 0 then .finite negative fraction (-1074)
  else .finite negative (twoTo 52 + fraction) (exponent - 1075)

def ratio? (x : Float) : Option (Int × Nat) :=
  match parts x with
  | .finite negative m q =>
    let n : Int := if negative then -m else m
    some (n * twoTo q.toNat, twoTo (-q).toNat)
  | _ => none

def whole? (x : Float) : Option Int :=
  (ratio? x).bind fun (n, d) => if n % d = 0 then some (n / d) else none

def truncate? (x : Float) : Option Int :=
  (ratio? x).map fun (n, d) => n.tdiv d

def compareInt (n : Int) (x : Float) : Option Ordering :=
  match parts x with
  | .nan => none
  | .infinite negative => some (if negative then .gt else .lt)
  | .finite .. => (ratio? x).map fun (a, d) => compare (n * d) a

end Kitchen.Number

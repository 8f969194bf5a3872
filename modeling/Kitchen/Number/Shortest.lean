import Kitchen.Number.Binary

namespace Kitchen.Number

def leadingPlace (m : Nat) (q : Int) : Int :=
  let guess := (m.log2 + q) * 30103 / 100000
  if tenTo (guess + 1).toNat * twoTo (-q).toNat ≤ m * twoTo q.toNat * tenTo (-(guess + 1)).toNat then
    guess + 1
  else guess

def nearestOnGrid? (m : Nat) (q place : Int) : Option Nat :=
  let step := tenTo place.toNat * twoTo (2 - q).toNat
  let unit := twoTo (q - 2).toNat * tenTo (-place).toNat
  let value := 4 * m * unit
  let low := (if m = twoTo 52 ∧ -1074 < q then 4 * m - 1 else 4 * m - 2) * unit
  let high := (4 * m + 2) * unit
  let fits (d : Nat) : Bool :=
    if m % 2 = 0 then low ≤ d * step && d * step ≤ high else low < d * step && d * step < high
  let down := value / step
  let up := down + 1
  match fits down, fits up with
  | true, true =>
    let below := value - down * step
    let above := up * step - value
    some (if below < above ∨ below = above ∧ down % 2 = 0 then down else up)
  | true, false => some down
  | false, true => some up
  | false, false => none

def shortest (m : Nat) (q : Int) : Nat × Int :=
  let top := leadingPlace m q
  ((List.range 17).findSome? fun i : Nat =>
    (nearestOnGrid? m q (top - i)).map (·, top - i)).getD (m * twoTo q.toNat, 0)

def digitsOf (n : Nat) : List Char :=
  Nat.toDigits 10 n

def scientific (m : Nat) (q : Int) : List Char × Int :=
  let (n, place) := shortest m q
  let ds := digitsOf n
  ((ds.reverse.dropWhile (· = '0')).reverse, place + ds.length - 1)

def exponentText (e : Int) : List Char :=
  let ds := digitsOf e.natAbs
  (if e < 0 then '-' else '+') :: (if ds.length < 2 then '0' :: ds else ds)

def layOut (ds : List Char) (place : Int) : List Char :=
  if -4 ≤ place ∧ place < 16 then
    if place < 0 then '0' :: '.' :: List.replicate (-place - 1).toNat '0' ++ ds
    else
      let intDigits := place.toNat + 1
      let padded := ds ++ List.replicate (intDigits - ds.length) '0'
      let fraction := padded.drop intDigits
      padded.take intDigits ++ '.' :: (if fraction.isEmpty then ['0'] else fraction)
  else
    let fraction := ds.drop 1
    ds.take 1 ++ (if fraction.isEmpty then [] else '.' :: fraction) ++ 'e' :: exponentText place

def floatText (x : Float) : String :=
  match parts x with
  | .nan => "nan"
  | .infinite negative => if negative then "-inf" else "inf"
  | .finite negative m q =>
    let body := if m = 0 then ['0', '.', '0'] else
      let (ds, place) := scientific m q
      layOut ds place
    String.ofList (if negative then '-' :: body else body)

end Kitchen.Number

import Kitchen.Number.Shortest

namespace Kitchen.Number

def roundRatio (n d : Nat) : Nat :=
  let q := n / d
  let r := n % d
  if 2 * r < d then q else if 2 * r > d then q + 1 else q + q % 2

def roundedTo (m : Nat) (q place : Int) : Nat :=
  roundRatio (m * twoTo q.toNat * tenTo (-place).toNat) (twoTo (-q).toNat * tenTo place.toNat)

def zeroPadded (width : Nat) (ds : List Char) : List Char :=
  List.replicate (width - ds.length) '0' ++ ds

def fixedText (m : Nat) (q : Int) (places : Nat) (keepPoint : Bool) : List Char :=
  let ds := zeroPadded (places + 1) (digitsOf (roundedTo m q (-places)))
  let cut := ds.length - places
  ds.take cut ++ (if places = 0 ∧ !keepPoint then [] else '.' :: ds.drop cut)

def leadingDigits (m : Nat) (q : Int) (count : Nat) : List Char × Int :=
  if m = 0 then (List.replicate count '0', 0)
  else
    let top := leadingPlace m q
    let ds := digitsOf (roundedTo m q (top - count + 1))
    if ds.length > count then (ds.take count, top + 1) else (ds, top)

def exponentForm (m : Nat) (q : Int) (places : Nat) (keepPoint : Bool) : List Char :=
  let (ds, place) := leadingDigits m q (places + 1)
  ds.take 1 ++ (if places = 0 ∧ !keepPoint then [] else '.' :: ds.drop 1) ++ 'e' :: exponentText place

def withoutTail (cs : List Char) : List Char :=
  if cs.contains '.' then
    let cs := (cs.reverse.dropWhile (· = '0')).reverse
    if cs.getLast? = some '.' then cs.dropLast else cs
  else cs

def generalForm (m : Nat) (q : Int) (digits : Nat) (keepTail : Bool) : List Char :=
  let count := max digits 1
  let (ds, place) := leadingDigits m q count
  if -4 ≤ place ∧ place < count then
    let text := fixedText m q ((count : Int) - 1 - place).toNat keepTail
    if keepTail then text else withoutTail text
  else
    let mantissa := ds.take 1 ++ (if count = 1 ∧ !keepTail then [] else '.' :: ds.drop 1)
    (if keepTail then mantissa else withoutTail mantissa) ++ 'e' :: exponentText place

end Kitchen.Number

import Kitchen.Text.CaseTable
import Kitchen.Text.Ranges

namespace Kitchen.Text

def Shift.holds (s : Shift) (c : Nat) : Bool :=
  s.first ≤ c && c ≤ s.last && (c - s.first) % s.stride == 0

def shifted (shifts : List Shift) (c : Char) : Char :=
  match shifts.find? (·.holds c.toNat) with
  | some s => Char.ofNat (c.toNat + s.shift).toNat
  | none => c

def recased (shifts : List Shift) (expansions : List (Nat × List Nat)) (c : Char) : List Char :=
  match expansions.lookup c.toNat with
  | some cs => cs.map Char.ofNat
  | none => [shifted shifts c]

def upper (s : List Char) : List Char :=
  s.flatMap (recased upperShifts upperExpansions)

def meetsCased (s : List Char) : Bool :=
  match s.dropWhile fun c => within c.toNat passedOverBounds with
  | [] => false
  | c :: _ => within c.toNat casedBounds

def lower (s : List Char) : List Char :=
  go [] s
where
  go (before : List Char) : List Char → List Char
  | [] => []
  | c :: rest =>
    let here :=
      if c = 'Σ' then
        if meetsCased before && !meetsCased rest then ['ς'] else ['σ']
      else recased lowerShifts lowerExpansions c
    here ++ go (c :: before) rest

def lowerChar (c : Char) : Char :=
  if c = 'İ' then 'i' else shifted lowerShifts c

end Kitchen.Text

namespace Kitchen.Text.Likeness

def common : List Char → List Char → Nat
  | a :: as, b :: bs => if a = b then common as bs + 1 else 0
  | _, _ => 0

structure Run where
  left : Nat
  right : Nat
  size : Nat
  deriving DecidableEq, Repr

def longest (as bs : List Char) : Run :=
  (List.range as.length).foldl (fun best i =>
    (List.range bs.length).foldl (fun best j =>
      let size := common (as.drop i) (bs.drop j)
      if best.size < size then ⟨i, j, size⟩ else best) best) ⟨0, 0, 0⟩

def sharedWithin : Nat → List Char → List Char → Nat
  | 0, _, _ => 0
  | fuel + 1, as, bs =>
    let run := longest as bs
    if run.size = 0 then 0
    else
      sharedWithin fuel (as.take run.left) (bs.take run.right) + run.size
        + sharedWithin fuel (as.drop (run.left + run.size)) (bs.drop (run.right + run.size))

def shared (as bs : List Char) : Nat :=
  sharedWithin as.length as bs

def areAlike (a b : String) : Bool :=
  3 * (a.length + b.length) ≤ 10 * shared a.toList b.toList

def atLeastAsLike (word a b : String) : Bool :=
  let x := shared a.toList word.toList * (b.length + word.length)
  let y := shared b.toList word.toList * (a.length + word.length)
  y < x || (x = y && b ≤ a)

def candidates (word : String) (known : List String) : List String :=
  ((known.filter (areAlike · word)).mergeSort (atLeastAsLike word)).take 3

end Kitchen.Text.Likeness

import Kitchen.Storage.Tree

namespace Kitchen.Storage

namespace Wildcard

inductive Piece where
  | star
  | any
  | char (c : Char)
  | oneOf (negated : Bool) (ranges : List (Char × Char))
  deriving DecidableEq, Repr

def ranges : List Char → List (Char × Char)
  | low :: '-' :: high :: rest => (low, high) :: ranges rest
  | c :: rest => (c, c) :: ranges rest
  | [] => []

def set? (cs : List Char) : Option (Piece × List Char) :=
  let (negated, cs) := match cs with
    | '!' :: rest => (true, rest)
    | _ => (false, cs)
  let (first, rest) := match cs with
    | ']' :: rest => ([']'], rest)
    | _ => ([], cs)
  match rest.dropWhile (· ≠ ']') with
  | _ :: left => some (.oneOf negated (ranges (first ++ rest.takeWhile (· ≠ ']'))), left)
  | [] => none

def piecesWithin : Nat → List Char → List Piece
  | 0, _ | _, [] => []
  | fuel + 1, c :: rest =>
    if c = '*' then .star :: piecesWithin fuel rest
    else if c = '?' then .any :: piecesWithin fuel rest
    else if c = '[' then
      match set? rest with
      | some (set, left) => set :: piecesWithin fuel left
      | none => .char c :: piecesWithin fuel rest
    else .char c :: piecesWithin fuel rest

def pieces (cs : List Char) : List Piece :=
  piecesWithin cs.length cs

def Piece.accepts (c : Char) : Piece → Bool
  | star | any => true
  | char d => c == d
  | oneOf negated ranges => ranges.any (fun r => r.1 ≤ c && c ≤ r.2) != negated

def tails : List Char → List (List Char)
  | [] => [[]]
  | c :: rest => (c :: rest) :: tails rest

def fits : List Piece → List Char → Bool
  | [], cs => cs.isEmpty
  | .star :: ps, cs => (tails cs).any (fits ps)
  | _ :: _, [] => false
  | p :: ps, c :: cs => p.accepts c && fits ps cs

end Wildcard

inductive Stretch where
  | deep
  | like (pieces : List Wildcard.Piece)
  | named (name : String)
  deriving Repr

def Stretch.ofPart? (part : String) : Option Stretch :=
  let cs := part.toList
  if part = "**" then some .deep
  else if (Wildcard.tails cs).any (['*', '*'].isPrefixOf ·) then none
  else if cs.any (fun c => c = '*' || c = '?' || c = '[') then some (.like (Wildcard.pieces cs))
  else some (.named part)

def Tree.select (t : Tree) (p : Path) : List Stretch → List Path
  | [] => [p]
  | stretch :: rest =>
    let go (q : Path) : List Path :=
      if (if rest.isEmpty then t.has q else t.isFolder q) then t.select q rest else []
    match stretch with
    | .deep => (p :: t.foldersBelow p).flatMap fun q => t.select q rest
    | .like ps =>
      ((t.names p).filter fun name => Wildcard.fits ps name.toList).flatMap fun name =>
        go (p.child name)
    | .named name => go (p.child name)

def Tree.search? (t : Tree) (p : Path) (pattern : String) : Option (List Path) :=
  ((Path.ofText pattern).parts.mapM Stretch.ofPart?).map fun stretches =>
    if t.isFolder p then t.select p (.deep :: stretches) else []

end Kitchen.Storage

namespace Kitchen.Screen.Markup

inductive Fault where
  | noneOpen (name : String) (place : Nat)
  | nothingToClose (place : Nat)
  deriving DecidableEq, Repr

def Fault.message : Fault → String
  | noneOpen name place => s!"closing tag '[{name}]' at position {place} doesn't match any open tag"
  | nothingToClose place => s!"closing tag '[/]' at position {place} has nothing to close"

def startsTag (c : Char) : Bool := ('a' ≤ c && c ≤ 'z') || c = '#' || c = '/' || c = '@'

def tag? : List Char → Option (List Char × List Char)
  | [] => none
  | c :: rest =>
    if !startsTag c then none
    else
      let name := rest.takeWhile fun c => c ≠ ']' && c ≠ '['
      match rest.drop name.length with
      | ']' :: left => some (c :: name, left)
      | _ => none

def marked? (cs : List Char) : Option (Nat × List Char × List Char) :=
  let count := (cs.takeWhile (· = '\\')).length
  match cs.drop count with
  | '[' :: rest => (tag? rest).map fun (name, left) => (count, name, left)
  | _ => none

def backslashes (n : Nat) : List Char := List.replicate n '\\'

def protectWithin : Nat → List Char → List Char
  | 0, cs => cs
  | _, [] => []
  | fuel + 1, c :: rest =>
    match marked? (c :: rest) with
    | some (n, name, left) => backslashes (2 * n + 1) ++ '[' :: name ++ ']' :: protectWithin fuel left
    | none => c :: protectWithin fuel rest

def protect (cs : List Char) : List Char :=
  let cs := protectWithin cs.length cs
  let tail := (cs.reverse.takeWhile (· = '\\')).length
  if tail = 1 then cs ++ ['\\'] else cs

inductive Piece where
  | text (cs : List Char)
  | tag (name : List Char) (place : Nat)
  deriving Repr

def piecesWithin : Nat → Nat → List Char → List Char → List Piece
  | 0, _, held, cs => [.text (held.reverse ++ cs)]
  | _, _, held, [] => [.text held.reverse]
  | fuel + 1, place, held, c :: rest =>
    match marked? (c :: rest) with
    | none => piecesWithin fuel (place + 1) (c :: held) rest
    | some (n, name, left) =>
      let after := place + n + name.length + 2
      let body : Piece :=
        if n % 2 = 1 then .text ('[' :: name ++ [']']) else .tag name (place + n)
      .text held.reverse :: .text (backslashes (n / 2)) :: body :: piecesWithin fuel after [] left

def pieces (cs : List Char) : List Piece :=
  piecesWithin cs.length 0 [] cs

def unprotected : List Char → List Char
  | '\\' :: '[' :: rest => '[' :: unprotected rest
  | c :: rest => c :: unprotected rest
  | [] => []

def shortNames : List (String × String) :=
  [("b", "bold"), ("d", "dim"), ("i", "italic"), ("u", "underline"), ("r", "reverse"),
    ("c", "conceal"), ("s", "strike"), ("uu", "underline2"), ("o", "overline")]

def trim (cs : List Char) : List Char :=
  ((cs.dropWhile (· = ' ')).reverse.dropWhile (· = ' ')).reverse

def nameOf (tag : List Char) : String :=
  let name := String.ofList (trim ((tag.takeWhile (· ≠ '=')).map Char.toLower))
  (shortNames.lookup name).getD name

def shown (tags : List String) : List Piece → Except Fault (List Char)
  | [] => .ok []
  | .text cs :: rest => (unprotected cs ++ ·) <$> shown tags rest
  | .tag tag place :: rest =>
    match tag with
    | '/' :: name =>
      if (trim name).isEmpty then
        match tags with
        | [] => .error (.nothingToClose place)
        | _ :: outer => shown outer rest
      else if tags.contains (nameOf name) then shown (tags.erase (nameOf name)) rest
      else .error (.noneOpen (String.ofList tag) place)
    | tag => shown (nameOf tag :: tags) rest

def isMove (c : Char) : Bool := ['\x07', '\x08', '\x0b', '\x0c', '\r'].contains c

def plain (cs : List Char) : Except Fault (List Char) :=
  (if cs.contains '[' then shown [] (pieces cs) else .ok cs).map (·.filter (!isMove ·))

end Kitchen.Screen.Markup

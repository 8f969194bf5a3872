import Kitchen.Screen.Width
import Kitchen.Text.Blank

namespace Kitchen.Screen

inductive Side where
  | left
  | right
  | center
  deriving DecidableEq, Repr

def isBlank (c : Char) : Bool := Text.isBlank c

def wordsWithin : Nat → List Char → List (List Char)
  | 0, _ => []
  | fuel + 1, cs =>
    let lead := cs.takeWhile isBlank
    let rest := cs.drop lead.length
    let word := rest.takeWhile (!isBlank ·)
    let rest := rest.drop word.length
    let gap := rest.takeWhile isBlank
    if word.isEmpty then [] else (lead ++ word ++ gap) :: wordsWithin fuel (rest.drop gap.length)

def stripEnd (cs : List Char) : List Char :=
  (cs.reverse.dropWhile isBlank).reverse

def chop (limit used : Nat) (held : List Char) : List Char → List (List Char)
  | [] => [held.reverse]
  | c :: rest =>
    if limit < used + charWidth c ∧ held ≠ [] then held.reverse :: chop limit (charWidth c) [c] rest
    else chop limit (used + charWidth c) (c :: held) rest

-- Puts words on lines of at most so many columns. `line` is the line that is being filled; a word that is too
-- long for any line is cut if lines are folded.
def fill (limit : Nat) (folds : Bool) (line : List Char) (used : Nat) : List (List Char) → List (List Char)
  | [] => [line]
  | word :: rest =>
    let size := width (stripEnd word)
    if size + used ≤ limit then fill limit folds (line ++ word) (used + width word) rest
    else if limit < size then
      let before := if line.isEmpty then [] else [line]
      if folds then
        let parts := chop limit 0 [] word
        let last := parts.getLastD []
        before ++ parts.dropLast ++ fill limit folds last (width last) rest
      else before ++ fill limit folds word (width word) rest
    else if line.isEmpty then fill limit folds (line ++ word) used rest
    else line :: fill limit folds word (width word) rest

def dropExcess (limit : Nat) (cs : List Char) : List Char :=
  let blanks := cs.length - (stripEnd cs).length
  cs.take (cs.length - min blanks (cs.length - limit))

def expandTabs (column : Nat) : List Char → List Char
  | [] => []
  | c :: rest =>
    if c = '\t' then
      let size := 8 - column % 8
      List.replicate size ' ' ++ expandTabs (column + size) rest
    else c :: expandTabs (column + charWidth c) rest

def splitLines : List Char → List (List Char)
  | [] => [[]]
  | c :: rest =>
    if c = '\n' then [] :: splitLines rest
    else match splitLines rest with
      | [] => [[c]]
      | line :: lines => (c :: line) :: lines

def wrap (limit : Nat) (folds : Bool) (cs : List Char) : List (List Char) :=
  (splitLines cs).flatMap fun line =>
    let line := expandTabs 0 line
    let words := wordsWithin (line.length + 1) line
    let lines := if words.isEmpty then [line] else fill limit folds [] 0 words
    lines.map (dropExcess limit)

def crop (limit : Nat) : List Char → List Char
  | [] => []
  | c :: rest => if limit < charWidth c then [] else c :: crop (limit - charWidth c) rest

def spaces (n : Nat) : List Char := List.replicate n ' '

def align (side : Side) (limit : Nat) (line : List Char) : List Char :=
  match side with
  | .left =>
    let line := crop limit line
    line ++ spaces (limit - width line)
  | .right =>
    let line := crop limit (stripEnd line)
    spaces (limit - width line) ++ line
  | .center =>
    let line := crop limit (stripEnd line)
    let free := limit - width line
    spaces (free / 2) ++ line ++ spaces (free - free / 2)

end Kitchen.Screen

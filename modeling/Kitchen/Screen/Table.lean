import Kitchen.Screen.Markup
import Kitchen.Screen.Wrap

namespace Kitchen.Screen

structure Column where
  head : String
  side : Side

structure Table where
  title : String
  columns : List Column
  rows : List (List String)

def screenWidth : Nat := 1000

structure Rule where
  left : Char
  line : Char
  cross : Char
  right : Char

def Rule.draw (r : Rule) (widths : List Nat) : List Char :=
  let spans := widths.map fun n => List.replicate (n + 2) r.line
  r.left :: (List.intersperse [r.cross] spans).flatten ++ [r.right]

namespace Table

def top : Rule := ⟨'┏', '━', '┳', '┓'⟩

def underHead : Rule := ⟨'┡', '━', '╇', '┩'⟩

def bottom : Rule := ⟨'└', '─', '┴', '┘'⟩

def cellWidth (cs : List Char) : Nat :=
  ((splitLines cs).map width).foldl max 1

def naturalWidths (count : Nat) (grid : List (List (List Char))) : List Nat :=
  (List.range count).map fun i => (grid.map fun row => cellWidth (row.getD i [])).foldl max 1

def fullWidth (widths : List Nat) : Nat :=
  widths.foldl (· + ·) 0 + 3 * widths.length + 1

def fitted (widths : List Nat) : List Nat :=
  let total := fullWidth widths
  let widest := widths.foldl max 0
  if total ≤ screenWidth then widths
  else
    match widths.idxOf? widest with
    | some i => widths.set i (widest - (total - screenWidth))
    | none => widths

def rowLines (bar : Char) (columns : List Column) (widths : List Nat) (row : List (List Char)) :
    List (List Char) :=
  let cells := (row.zip (columns.zip widths)).map fun (cs, column, n) =>
    ((wrap n false cs).map (align column.side n), n)
  let height := (cells.map fun cell => cell.1.length).foldl max 1
  (List.range height).map fun i =>
    let parts := cells.map fun (lines, n) => ' ' :: (lines.getD i (spaces n)) ++ [' ']
    bar :: (List.intersperse [bar] parts).flatten ++ [bar]

def lines (t : Table) : Except Markup.Fault (List (List Char)) := do
  let title ← Markup.plain t.title.toList
  let heads ← t.columns.mapM fun c => Markup.plain c.head.toList
  let rows ← t.rows.mapM fun row => row.mapM fun cell => Markup.plain cell.toList
  let widths := fitted (naturalWidths t.columns.length (heads :: rows))
  let total := fullWidth widths
  return (wrap total true title).map (align .center total)
    ++ [top.draw widths]
    ++ rowLines '┃' t.columns widths heads
    ++ [underHead.draw widths]
    ++ rows.flatMap (rowLines '│' t.columns widths)
    ++ [bottom.draw widths]

def text (t : Table) : Except Markup.Fault String :=
  t.lines.map fun ls => String.ofList (ls.flatMap (· ++ ['\n']))

end Table

def message (lead : String) (content : String) : Except Markup.Fault String := do
  let cs ← Markup.plain (lead.toList ++ Markup.protect content.toList)
  return String.ofList ((wrap screenWidth true cs).flatMap (· ++ ['\n']))

end Kitchen.Screen

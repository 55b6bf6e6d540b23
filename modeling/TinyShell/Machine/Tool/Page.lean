/-!
# Pages

Short texts put side by side: one on a line, in columns, or between commas.
-/

namespace TinyShell.Machine.Tool

/-- How texts share a line. -/
inductive Spread where
  | lines
  | down
  | across
  | commas
  deriving DecidableEq, Repr, Inhabited

/-- A text with the columns that it takes. -/
structure Cell where
  text : String
  width : Nat
  deriving Repr, Inhabited

/-- What texts are laid out on. -/
structure Page where
  spread : Spread := .lines
  /-- Columns of a line; zero for no end. -/
  columns : Nat := 80
  /-- Columns between tab stops; zero for no tabs. -/
  tabs : Nat := 8
  /-- What a line ends with. -/
  newline : String := "\n"
  deriving Repr, Inhabited

namespace Page

/-- Blanks from one column to another, tabs where they reach. `count` bounds the steps. -/
def indent (tabs : Nat) : (count : Nat) → (column goal : Nat) → List Char
  | 0, _, _ => []
  | count + 1, column, goal =>
    if goal ≤ column then []
    else if tabs ≠ 0 && (column + 1) / tabs < goal / tabs then
      '\t' :: indent tabs count ((column / tabs + 1) * tabs) goal
    else ' ' :: indent tabs count (column + 1) goal

/-- The least columns that a column of texts takes, with the gap behind it. -/
def leastWidth : Nat := 3

/-- The place of a text in rows and columns: its row and its column. -/
def position (spread : Spread) (rows columns index : Nat) : Nat × Nat :=
  if spread = .down then (index % rows, index / rows) else (index / columns, index % columns)

/-- The widths of so many columns. -/
def widths (spread : Spread) (count : Nat) (sizes : List Nat) : List Nat :=
  let rows := (sizes.length + count - 1) / count
  (List.range count).map fun column =>
    let inside := sizes.zipIdx.filter fun (_, index) =>
      (position spread rows count index).2 = column
    let gap := if column + 1 = count then 0 else 2
    (inside.map fun (size, _) => size + gap).foldl max leastWidth

/-- The widths of as many columns as there is room for. Columns of the least width fit always. -/
def columnWidths (page : Page) (sizes : List Nat) : List Nat :=
  let most := (page.columns + leastWidth - 1) / leastWidth
  let most := max 1 (min most sizes.length)
  let fits (count : Nat) : Bool :=
    let widths := widths page.spread count sizes
    widths.all (· = leastWidth) || widths.foldl (· + ·) 0 < page.columns
  let counts := (List.range most).reverse.map (· + 1)
  widths page.spread ((counts.find? fits).getD 1) sizes

/-- Texts in columns. -/
def inColumns (page : Page) (cells : List Cell) : String :=
  let columnWidths := page.columnWidths (cells.map (·.width))
  let columns := columnWidths.length
  let rows := (cells.length + columns - 1) / columns
  let starts := (List.range columns).map fun column =>
    (columnWidths.take column).foldl (· + ·) 0
  let line (row : Nat) : String :=
    let inside := cells.zipIdx.filterMap fun (cell, index) =>
      if (position page.spread rows columns index).1 = row then some cell else none
    let (text, _) := (inside.zip starts).foldl (fun ((text, column) : String × Nat)
        (cell, start) =>
      (text ++ String.ofList (indent page.tabs (start - column) column start) ++ cell.text,
        start + cell.width)) ("", 0)
    text ++ page.newline
  String.join ((List.range rows).map line)

/-- Texts with `mark` between them, in lines that are not too long. -/
def inLine (page : Page) (mark : String) (cells : List Cell) : String :=
  match cells with
  | [] => ""
  | first :: rest =>
    let (text, _) := rest.foldl (fun ((text, column) : String × Nat) cell =>
      if page.columns = 0 || column + cell.width + 2 < page.columns then
        (text ++ mark ++ " " ++ cell.text, column + cell.width + 2)
      else (text ++ mark ++ page.newline ++ cell.text, cell.width)) (first.text, first.width)
    text ++ page.newline

/-- Texts as they share lines. -/
def apply (page : Page) (cells : List Cell) : String :=
  match page.spread with
  | .lines => String.join (cells.map (·.text ++ page.newline))
  | .commas => page.inLine "," cells
  | .down | .across =>
    if cells.isEmpty then ""
    else if page.columns = 0 then page.inLine " " cells
    else page.inColumns cells

end Page

end TinyShell.Machine.Tool

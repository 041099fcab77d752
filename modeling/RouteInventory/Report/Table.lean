import RouteInventory.Number.Binary64
import RouteInventory.Report.Layout

/-!
# Tables

A table with a title over it and a heading over each column, drawn with lines. Its columns are as wide
as their contents; where that is too wide, the widest columns give way first and text that does not fit
ends in an ellipsis.
-/

namespace RouteInventory.Report

open Text Number

structure Column where
  heading : String
  alignment : Alignment
deriving DecidableEq, Repr

structure Table where
  title : String
  columns : List Column
  rows : List (List String)
deriving DecidableEq, Repr

/-- The characters of a horizontal line: at its left end, along it, between columns, at its right end. -/
structure Stroke where
  left : Char
  along : Char
  between : Char
  right : Char

namespace Stroke

def top : Stroke := ⟨'┏', '━', '┳', '┓'⟩
def belowHeadings : Stroke := ⟨'┡', '━', '╇', '┩'⟩
def bottom : Stroke := ⟨'└', '─', '┴', '┘'⟩

def draw (s : Stroke) (widths : List Nat) : List Char :=
  s.left :: [s.between].intercalate (widths.map fun w => List.replicate w s.along) ++ [s.right]

end Stroke

namespace Table

/-- The blanks beside the text of a cell, on both sides together. -/
def padding : Nat := 2

/-- The cells that the lines between and beside the columns take. -/
def strokes (t : Table) : Nat := t.columns.length + 1

/-- The width of a column's widest text with its padding. -/
def contentWidth (t : Table) (i : Nat) (c : Column) : Nat :=
  let texts := c.heading :: t.rows.filterMap (·[i]?)
  (texts.map fun s => width s.toList).foldr max 0 + padding

def total (widths : List Nat) : Nat := widths.foldr (· + ·) 0

/-- Takes up to the given amount from the chosen columns, an even share from each. -/
def reduce (amount most chosen : Nat) (isChosen : Nat → Bool) : List Nat → List Nat
  | [] => []
  | w :: rest =>
    if isChosen w && chosen > 0 then
      let share := min most (roundHalfEven amount chosen)
      (w - share) :: reduce (amount - share) most (chosen - 1) isChosen rest
    else w :: reduce amount most chosen isChosen rest

/-- Narrows the widest columns to the width of the next widest, until all fit. -/
def collapse (available : Nat) : (fuel : Nat) → List Nat → List Nat
  | 0, widths => widths
  | fuel + 1, widths =>
    let excess := total widths - available
    let widest := widths.foldr max 0
    let next := (widths.filter (· != widest)).foldr max 0
    if excess = 0 ∨ widest = next then widths
    else
      let count := widths.count widest
      collapse available fuel
        (reduce excess (min excess (widest - next)) count (· == widest) widths)

/-- The widths of the columns in a line of so many cells. -/
def widths (t : Table) (cells : Nat) : List Nat :=
  let available := cells - t.strokes
  let natural := t.columns.zipIdx.map fun (c, i) => max 1 (min available (t.contentWidth i c))
  collapse available (total natural) natural

/-- The lines of a cell, padding included. There are none where the padding takes all. -/
def cellLines (alignment : Alignment) (w : Nat) (text : String) : List (List Char) :=
  if w ≤ padding then []
  else
    (setLines alignment .ellipsis (w - padding) text.toList).map fun line =>
      fit w (' ' :: fit (w - padding) line ++ [' '])

/-- The lines of a row between the given marks, one at least. Cells with fewer lines are filled up. -/
def rowLines (t : Table) (mark : Char) (widths : List Nat) (texts : List String) :
    List (List Char) :=
  let cells := ((t.columns.zip widths).zip texts).map fun ((c, w), text) =>
    (w, cellLines c.alignment w text)
  let height := (cells.map (·.2.length)).foldr max 1
  (List.range height).map fun i =>
    let pieces := cells.map fun (w, lines) => lines[i]?.getD (blanks w)
    mark :: [mark].intercalate pieces ++ [mark]

/-- The lines of a table with columns of the given widths. -/
def draw (t : Table) (widths : List Nat) : List (List Char) :=
  setLines .center .fold (total widths + t.strokes) t.title.toList ++
    Stroke.top.draw widths :: t.rowLines '┃' widths (t.columns.map (·.heading)) ++
    Stroke.belowHeadings.draw widths :: t.rows.flatMap (t.rowLines '│' widths) ++
    [Stroke.bottom.draw widths]

/-- The lines of a table on so many cells. Where even its lines do not fit, they are cropped. -/
def lines (t : Table) (cells : Nat) : List (List Char) :=
  (t.draw (t.widths cells)).map fun line => crop cells [line]

end Table

end RouteInventory.Report

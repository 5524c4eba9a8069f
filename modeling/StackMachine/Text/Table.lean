import StackMachine.Text.Escape
import StackMachine.Text.Cut

/-!
Tables of text: a row of titles, a rule, the rows, and a rule below. A cell may have several
lines; a column is as wide as the widest line in it.
-/

set_option autoImplicit false

namespace StackMachine

inductive Alignment
  | left
  | right
deriving DecidableEq

structure Column where
  title : String
  alignment : Alignment
deriving DecidableEq

/-- Each row has a cell for each column. -/
structure Table where
  columns : List Column
  rows : List (List String)
deriving DecidableEq

namespace Text

/-- The lines of a text. A line feed ends a line, together with a carriage return before it, and
the text after the last line feed is a line unless it is empty. -/
def lines (text : List Char) : List (List Char) :=
  if text = [] then []
  else if '\n' ∈ text then
    let line := Cut.before '\n' text
    (if line.getLast? = some '\r' then line.dropLast else line) :: lines (Cut.after '\n' text)
  else [text]
termination_by text.length
decreasing_by exact Cut.length_after_lt ‹_›

end Text

namespace Table

/-- The widest line of a cell, in display columns. -/
def cellWidth (cell : String) : Nat :=
  ((Text.lines cell.toList).map Text.screenColumns).foldl max 0

/-- The titles come first among the rows that fix the widths. -/
def widths (table : Table) : List Nat :=
  let titles := table.columns.map Column.title
  (List.range table.columns.length).map fun i =>
    ((titles :: table.rows).map fun row => cellWidth (row.getD i "")).foldl max 0

def pad (alignment : Alignment) (width : Nat) (line : List Char) : List Char :=
  let filler := List.replicate (width - Text.screenColumns line) ' '
  match alignment with
  | .left => line ++ filler
  | .right => filler ++ line

/-- One line of a row: a blank on each side of every cell, and of the whole line. -/
def renderLine (layout : List (Alignment × Nat)) (parts : List (List Char)) : List Char :=
  let cells := layout.zipWith
    (fun (alignment, width) part => ' ' :: pad alignment width part ++ [' ']) parts
  ' ' :: ['│'].intercalate cells ++ [' ', '\n']

/-- A row has as many lines as its tallest cell, and at least one. -/
def renderRow (layout : List (Alignment × Nat)) (row : List String) : List Char :=
  let cells := row.map fun cell => Text.lines cell.toList
  let height := (cells.map List.length).foldl max 1
  (List.range height).flatMap fun i => renderLine layout (cells.map fun lines => lines.getD i [])

def renderRule (widths : List Nat) (crossing : Char) : List Char :=
  ' ' :: [crossing].intercalate (widths.map fun width => List.replicate (width + 2) '─') ++
    [' ', '\n']

/-- Every line, the last one too, ends with a line feed. -/
def render (table : Table) : String :=
  let layout := (table.columns.map Column.alignment).zip table.widths
  String.ofList <|
    renderRow layout (table.columns.map Column.title) ++ renderRule table.widths '┼' ++
      table.rows.flatMap (renderRow layout) ++ renderRule table.widths '┴'

end Table

end StackMachine

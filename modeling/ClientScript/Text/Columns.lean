/-!
Aligned columns. A row has cells and a tail. Consecutive rows that have a cell at some place form a
run of that column, and the cells of a run are padded to the widest of them and two blanks more. The
tail follows the last cell as it is. A row without cells ends every run.
-/

namespace ClientScript

structure Row where
  cells : List String
  tail : String
deriving DecidableEq, Repr

namespace Columns

/-- A row of which the first columns are set: their text, the cells still to come, and the tail. -/
structure Partial where
  done : List Char
  cells : List (List Char)
  tail : List Char

def Partial.ofRow (row : Row) : Partial :=
  ⟨[], row.cells.map String.toList, row.tail.toList⟩

def Partial.text (row : Partial) : List Char :=
  row.done ++ row.cells.flatten ++ row.tail

def gap : Nat := 2

def runWidth (run : List Partial) : Nat :=
  run.foldl (fun width row => max width ((row.cells.headD []).length + gap)) 0

def padCell (width : Nat) (cell : List Char) : List Char :=
  cell ++ List.replicate (width - cell.length) ' '

def Partial.place (width : Nat) (row : Partial) : Partial :=
  match row.cells with
  | [] => row
  | cell :: rest => { row with done := row.done ++ padCell width cell, cells := rest }

def placeColumn (rows : List Partial) : List Partial :=
  (rows.splitBy fun one next => one.cells.isEmpty == next.cells.isEmpty).flatMap
    fun run => run.map (Partial.place (runWidth run))

def columnCount (rows : List Row) : Nat :=
  rows.foldl (fun count row => max count row.cells.length) 0

def align (rows : List Row) : List Partial :=
  (columnCount rows).repeat placeColumn (rows.map Partial.ofRow)

def lines (rows : List Row) : List String :=
  (align rows).map fun row => String.ofList row.text

end Columns

def unlines (lines : List String) : String :=
  String.join (lines.map (· ++ "\n"))

end ClientScript

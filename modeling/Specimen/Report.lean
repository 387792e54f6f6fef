import Specimen.Mapping.SetterName
import Specimen.Model
import Specimen.Text.Blank

/-!
# The report on a model

A table with one line for each field under a line of titles: name, canonical type, kind and setter.
A column is as wide as its longest cell counted in bytes, cells are filled up with spaces counted in
characters, and the blanks at the end of a line are dropped.
-/

namespace Specimen.Report

def titles : List String :=
  ["FIELD", "TYPE", "KIND", "SETTER"]

def cells (name : String) (type : FieldType) : List String :=
  [name, type.canonical, type.kind, setterName name]

/-- The lines of cells, the titles first. -/
def rows (model : Model) : List (List String) :=
  titles :: model.toList.map fun (name, type) => cells name type

/-- The widths of the columns: for each the greatest byte length of its cells. -/
def widths (rows : List (List String)) : List Nat :=
  rows.foldl (fun widths row => List.zipWith (fun w (cell : String) => max w cell.utf8ByteSize)
    widths row) [0, 0, 0, 0]

/-- A cell filled up with spaces to a width in characters. -/
def padded (width : Nat) (cell : String) : List Char :=
  cell.toList ++ List.replicate (width - cell.length) ' '

/-- The text of a line: padded cells, two spaces apart, without blanks at the end. -/
def line (widths : List Nat) (row : List String) : List Char :=
  Text.trimRight (Text.joinWith [' ', ' '] (List.zipWith padded widths row))

/-- The widest column that can be laid out. -/
def widestColumn : Nat := 65535

/-- The table, if no cell is too wide to be laid out. -/
def render? (model : Model) : Option String :=
  let table := rows model
  let columns := widths table
  if columns.all (· ≤ widestColumn) then
    some (String.ofList (table.flatMap fun row => line columns row ++ ['\n']))
  else none

end Specimen.Report

import Rollup.Csv.Writer

/-!
# Layouts

A fixed order of columns, in which records are filled by column name. Of several columns with one
name the last one is meant.
-/

namespace Rollup

/-- A list of column names. -/
structure Layout where
  header : List String
  deriving DecidableEq, Repr

namespace Layout

/-- The position of a column. -/
def index? (l : Layout) (column : String) : Option Nat :=
  (l.header.zipIdx.reverse.find? (·.1 == column)).map (·.2)

/-- A record with empty cells. -/
def blank (l : Layout) : List String :=
  l.header.map fun _ => ""

/-- Fills a cell; a column outside the layout is ignored. -/
def set (l : Layout) (column value : String) (record : List String) : List String :=
  match l.index? column with
  | some i => record.set i value
  | none => record

/-- The cell in a column, empty outside the layout. -/
def get (l : Layout) (record : List String) (column : String) : String :=
  ((l.index? column).bind fun i => record[i]?).getD ""

/-- The record with the given cells filled in order. -/
def fill (l : Layout) (cells : List (String × String)) (record : List String) : List String :=
  cells.foldl (fun r p => l.set p.1 p.2 r) record

/-- The text of the header and the records. -/
def write (l : Layout) (records : List (List String)) : String :=
  Csv.encode (l.header :: records)

end Layout

end Rollup

import Rollup.Csv.Reader
import Rollup.Csv.Utf8
import Rollup.Error

/-!
# Tables

A table is the content of a file: its headers, the rows that are not blank, and the problems of
the records that could not be made into rows. Row numbers count the records after the header from
one; a blank record has a number but no row.
-/

namespace Rollup

/-- A row of cells, as many as the table has headers. -/
structure Row where
  number : Nat
  cells : List String
  deriving DecidableEq, Repr

/-- The content of a file. `columns` holds the canonical names of the headers. -/
structure Table where
  headers : List String
  columns : List String
  rows : List Row
  problems : List String
  deriving DecidableEq, Repr

namespace Table

/-! ## Cells -/

/-- The position of a column; the first of several with one canonical name counts. -/
def index? (t : Table) (column : String) : Option Nat :=
  t.columns.findIdx? (· == column)

/-- Whether the table has the column. -/
def hasColumn (t : Table) (column : String) : Bool :=
  t.columns.contains column

/-- A text that is not blank, trimmed. -/
def nonBlank? (s : String) : Option String :=
  let t := Text.trim s
  if t = "" then none else some t

/-- The trimmed cell of a row in a column, if it is not blank. -/
def cell? (t : Table) (row : Row) (column : String) : Option String :=
  (t.index? column).bind fun i => (row.cells[i]?).bind nonBlank?

/-- The trimmed cells of the column at a position that are not blank. -/
def columnValues (t : Table) (i : Nat) : List String :=
  t.rows.filterMap fun row => (row.cells[i]?).bind nonBlank?

/-! ## Building a table from records -/

/-- The table with the given headers and no rows. -/
def ofHeaders (headers : List String) : Table :=
  ⟨headers, headers.map Column.normalize, [], []⟩

/-- Adds a record. A blank one is dropped, a short one padded; one that is longer than the header
    loses its blank surplus, or is a problem if the surplus is not blank. -/
def addRecord (t : Table) (number : Nat) (cells : List String) : Table :=
  let width := t.headers.length
  if cells.all Text.isAllBlank then t
  else if !(cells.drop width).all Text.isAllBlank then
    { t with problems := t.problems ++
        ["row " ++ toString number ++ ": expected " ++ toString width ++ " columns, found " ++
          toString cells.length] }
  else
    let padded := cells.take width ++ List.replicate (width - cells.length) ""
    { t with rows := t.rows ++ [⟨number, padded⟩] }

/-- Adds the problem of a record that is not text. -/
def addProblem (t : Table) (number : Nat) (reason : String) : Table :=
  { t with problems := t.problems ++ ["row " ++ toString number ++ ": " ++ reason] }

/-- The fields of a record as texts, or why they are none. -/
abbrev Decoded := Except String (List String)

/-- Adds the records after the header, numbered from one. -/
def addRecords (t : Table) (records : List Decoded) : Table :=
  (records.zipIdx 1).foldl
    (fun t p => match p.1 with
      | .ok cells => t.addRecord p.2 cells
      | .error reason => t.addProblem p.2 reason)
    t

/-- The table of a list of records, the first of which is the header. -/
def ofRecords : List Decoded → Except ImportError Table
  | [] => .error .missingHeader
  | .error reason :: _ => .error (.malformed reason)
  | .ok header :: records =>
    let headers := header.map Text.trim
    if headers.all (· == "") then .error .missingHeader
    else .ok ((ofHeaders headers).addRecords records)

/-! ## Reading a file -/

/-- The table of a CSV text. -/
def ofText (text : String) : Except ImportError Table :=
  ofRecords ((Csv.records Csv.Marks.chars text.toList).map fun r =>
    .ok (r.fields.map String.ofList))

/-- The texts of the fields, or the position of the first field that is not UTF-8 and the number
    of its octets that are. `i` is the position of the first of the fields. -/
def decodeFields : (i : Nat) → List (List UInt8) → Except (Nat × Nat) (List String)
  | _, [] => .ok []
  | i, field :: rest =>
    match Csv.Utf8.decode field with
    | .error n => .error (i, n)
    | .ok s => (decodeFields (i + 1) rest).map (s :: ·)

/-- A record of octets as texts; the failure names the record, its place and the field. -/
def decodeRecord (index : Nat) (r : Csv.Record UInt8) : Decoded :=
  match decodeFields 0 r.fields with
  | .ok cells => .ok cells
  | .error (field, valid) =>
    .error ("CSV parse error: record " ++ toString index ++ " (line " ++ toString r.place.line ++
      ", field: " ++ toString field ++ ", byte: " ++ toString r.place.offset ++
      "): invalid utf-8: invalid UTF-8 in field " ++ toString field ++ " near byte index " ++
      toString valid)

/-- The table of the octets of a CSV file. -/
def ofOctets (octets : List UInt8) : Except ImportError Table :=
  ofRecords ((Csv.records Csv.Marks.octets octets).zipIdx.map fun p => decodeRecord p.2 p.1)

end Table

end Rollup

import Rollup.HierarchyRow
import Rollup.Literal
import Rollup.Table

/-!
# Reading the cells of a row

Typed access to the cells of a table row. A blank cell, and one that says `null`, has no value; a
cell whose text does not fit the type of its column is an error of the row.
-/

namespace Rollup.Table

/-- The text of a cell. -/
def text? (t : Table) (row : Row) (column : String) : Option String :=
  (t.cell? row column).bind Literal.text?

/-- A cell read with `read`, where `reason` says what a misfit is. -/
def typed {α : Type} (read : String → Option α) (reason : String) (t : Table) (row : Row)
    (column : String) : Except ImportError (Option α) :=
  match t.text? row column with
  | none => .ok none
  | some value =>
    match read value with
    | some a => .ok (some a)
    | none => .error (.badCell row.number column value reason)

/-- An integer cell. -/
def int (t : Table) (row : Row) (column : String) : Except ImportError (Option Int) :=
  typed Literal.int? "not an integer" t row column

/-- A cell with a number. -/
def number (t : Table) (row : Row) (column : String) : Except ImportError (Option Binary64) :=
  typed Literal.number? "not a number" t row column

/-- A cell with a truth value. -/
def bool (t : Table) (row : Row) (column : String) : Except ImportError (Option Bool) :=
  typed Literal.bool? "not a boolean" t row column

/-- A cell with an operation. -/
def operation (t : Table) (row : Row) (column : String) :
    Except ImportError (Option Operation) :=
  typed Operation.read? "unknown operation" t row column

/-- The parts of a cell with several values, trimmed; empty parts keep their place. -/
def parts (t : Table) (row : Row) (column : String) : List String :=
  match t.cell? row column with
  | none => []
  | some value => (Text.split Column.valueSeparator value).map Text.trim

/-- The parts of a cell read with `read`; an empty part has no value. -/
def typedParts {α : Type} (read : String → Option α) (reason : String) (t : Table) (row : Row)
    (column : String) : Except ImportError (List (Option α)) :=
  (t.parts row column).mapM fun part =>
    if part = "" then .ok none
    else match read part with
      | some a => .ok (some a)
      | none => .error (.badCell row.number column part reason)

/-- The level cells in order, empty where there is none. -/
def levels (t : Table) (row : Row) : List String :=
  (Column.upTo Column.maxLevels).map fun n => (t.cell? row (Column.level n)).getD ""

/-- The sort cells of the levels, in the columns that `column` names. -/
def levelSorts (t : Table) (row : Row) (column : Nat → String) :
    Except ImportError (List (Option Int)) :=
  (Column.upTo Column.maxLevels).mapM fun n => t.int row (column n)

/-- The fixed flags of a row. -/
def flags (t : Table) (row : Row) : Except ImportError RowFlags := do
  let included ← t.bool row Column.includeFlag
  let excluded ← t.bool row Column.excludeFlag
  let transformed ← t.bool row Column.transformFlag
  let calculated ← t.bool row Column.calculationFlag
  let active ← t.bool row Column.activeFlag
  let leaf ← t.bool row Column.isLeafNode
  return ⟨included, excluded, transformed, calculated, active, leaf⟩

/-- The flags of a row in the given custom columns; a cell that is no truth value is ignored. -/
def customFlags (t : Table) (row : Row) (columns : List String) : Dict Bool :=
  Dict.ofList (columns.filterMap fun c =>
    ((t.cell? row c).bind Literal.bool?).map fun b => (c, b))

/-- The filter group cells of a row. -/
def filterGroups (t : Table) (row : Row) : Dict String :=
  Dict.ofList ((Column.upTo Column.filterGroupCount).filterMap fun n =>
    (t.text? row (Column.filterGroup n)).map fun v => (Column.filterGroup n, v))

/-- The source mapping of a row, if it names a table or a column, and its index. -/
def inlineMapping (t : Table) (row : Row) :
    Except ImportError (Option SourceMapping × Option Int) := do
  let table := t.text? row Column.sourceTable
  let column := t.text? row Column.sourceColumn
  if table.isNone && column.isNone then return (none, none)
  let index ← t.int row Column.mappingIndex
  let mapping : SourceMapping :=
    { index := index.getD 0
      database := (t.text? row Column.sourceDatabase).getD ""
      schema := (t.text? row Column.sourceSchema).getD ""
      table := table.getD ""
      column := column.getD ""
      columnType := t.text? row Column.sourceColumnType
      filterValue := t.text? row Column.sourceUid
      precedenceGroup := t.text? row Column.precedenceGroup }
  return (some mapping, index)

/-! ## Custom flag columns -/

/-- Whether the column at a position holds a value, and only truth values. -/
def isFlagColumn (t : Table) (i : Nat) : Bool :=
  let values := t.columnValues i
  !values.isEmpty && values.all fun v => (Literal.bool? v).isSome

/-- Whether the column at a position is read as a custom flag. Columns of a layout are never
    flags, except the flag columns of legacy files. -/
def isCustomFlag (t : Table) (dialect : Dialect) (column : String) (i : Nat) : Bool :=
  column ≠ "" &&
    ((dialect = .legacy && Column.legacyFlags.contains column) ||
      (!Column.known.contains column && t.isFlagColumn i))

/-- The columns that are read as custom flags, in table order, each once. -/
def customFlagColumns (t : Table) (dialect : Dialect) : List String :=
  t.columns.zipIdx.foldl
    (fun found p =>
      if !found.contains p.1 && t.isCustomFlag dialect p.1 p.2 then found ++ [p.1] else found)
    []

end Rollup.Table

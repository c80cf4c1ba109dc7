import Rollup.HierarchyRow.Cells

/-!
# Profiles of tables

What can be said about a table before it is imported: its format, how deep its levels go, and for
each column how it is filled and what its values look like.
-/

namespace Rollup

/-- The profile of one column. -/
structure ColumnProfile where
  header : String
  normalized : String
  canonical : Option String
  filled : Nat
  empty : Nat
  distinct : Nat
  booleanLike : Bool
  numericLike : Bool
  samples : List String
  deriving DecidableEq, Repr

/-- The profile of a table. -/
structure Profile where
  detection : Detection
  rowCount : Nat
  columnCount : Nat
  levelDepth : Nat
  columns : List ColumnProfile
  customFlagCandidates : List String
  problems : List String
  deriving DecidableEq, Repr

namespace Profile

/-- How many values of a column are shown. -/
def sampleCount : Nat := 5

/-- The profile of the column at a position. -/
def column (t : Table) (header normalized : String) (i : Nat) : ColumnProfile :=
  let values := t.columnValues i
  let distinct := Dict.sortedDistinct values
  { header := header
    normalized := normalized
    canonical := if Column.known.contains normalized then some normalized else none
    filled := values.length
    empty := t.rows.length - values.length
    distinct := distinct.length
    booleanLike := !values.isEmpty && values.all fun v => (Literal.bool? v).isSome
    numericLike := !values.isEmpty && values.all fun v => (Literal.number? v).isSome
    samples := distinct.take sampleCount }

/-- The number of the deepest level column that holds a value. -/
def deepestLevel (t : Table) : Nat :=
  ((Column.upTo Column.maxLevels).reverse.find? fun n =>
    match t.index? (Column.level n) with
    | some i => !(t.columnValues i).isEmpty
    | none => false).getD 0

/-- The profile of a table. Files of no hierarchy format are taken for standard ones. -/
def ofTable (t : Table) : Profile :=
  let detection := Format.detect t.headers
  { detection := detection
    rowCount := t.rows.length
    columnCount := t.headers.length
    levelDepth := deepestLevel t
    columns := (t.headers.zip t.columns).zipIdx.map fun p => column t p.1.1 p.1.2 p.2
    customFlagCandidates :=
      t.customFlagColumns ((Dialect.ofFormat? detection.format).getD .standard)
    problems := t.problems }

end Profile

end Rollup

import Rollup.HierarchyRow.Cells

/-!
# Reading rows

The three ways to read a table row: as a row of a standard hierarchy file, of a legacy one, or of
a mapping file. The first cell that does not fit, in the order of reading, is the row's error.
-/

namespace Rollup.Table

/-! ## Standard rows -/

/-- The formula part of a standard row. -/
def standardFormula (t : Table) (row : Row) : Except ImportError RowFormula := do
  let operation ← t.operation row Column.formulaOperation
  let precedences ← typedParts Literal.int? "not an integer" t row Column.formulaPrecedence
  let constants ← typedParts Literal.number? "not a number" t row Column.formulaConstant
  let aggregation ← t.operation row Column.aggregation
  return {
    groupName := t.text? row Column.formulaGroupName
    operation := operation
    operationText := t.text? row Column.formulaOperation
    operands := t.parts row Column.formulaOperand
    precedences := precedences
    constants := constants
    expression := t.text? row Column.formulaExpression
    aggregation := aggregation }

/-- The sort values of a standard row. Files of older tools carry them in the legacy columns. -/
def standardSorts (t : Table) (row : Row) : Except ImportError (List (Option Int)) := do
  let orders ← t.levelSorts row Column.levelOrder
  if orders.all Option.isNone then t.levelSorts row Column.levelSort else return orders

/-- A row of a standard file. -/
def standardRow (t : Table) (flagColumns : List String) (row : Row) :
    Except ImportError HierarchyRow := do
  let sorts ← t.standardSorts row
  let (mapping, mappingIndex) ← t.inlineMapping row
  let isRoot ← t.bool row Column.isRoot
  let sortOrder ← t.int row Column.sortOrder
  let xrefKey ← t.int row Column.xrefKey
  let parentXrefKey ← t.int row Column.parentXrefKey
  let flags ← t.flags row
  let formula ← t.standardFormula row
  return {
    number := row.number
    hierarchyId := t.text? row Column.hierarchyId
    name := t.text? row Column.hierarchyName
    description := t.text? row Column.description
    parentHierarchyId := t.text? row Column.parentId
    isRoot := isRoot
    sortOrder := sortOrder
    xrefKey := xrefKey
    parentXrefKey := parentXrefKey
    levels := t.levels row
    levelSorts := sorts
    flags := flags
    customFlags := t.customFlags row flagColumns
    formula := formula
    filterGroups := t.filterGroups row
    mapping := mapping
    mappingIndex := mappingIndex }

/-! ## Legacy rows -/

/-- The metadata entries that legacy rows leave on their node. -/
def arithmeticLogicKey : String := "arithmetic_logic"
def projectLabelKey : String := "project_label"
def legacyXrefKey : String := "legacy_xref"

/-- What of a legacy row is kept on its node beyond the fields that nodes have. -/
def legacyMetadata (logic : Option String) (levels : List String) (xref : Option Int) :
    Dict Value :=
  Dict.ofList (
    (logic.map fun raw => (arithmeticLogicKey, Value.text raw)).toList ++
    ((levels.head?.filter (· ≠ "")).map fun label => (projectLabelKey, Value.text label)).toList ++
    (xref.map fun key => (legacyXrefKey, Value.int key)).toList)

/-- A row of a legacy file. Its arithmetic is an operation, or else a free expression. -/
def legacyRow (t : Table) (flagColumns : List String) (row : Row) :
    Except ImportError HierarchyRow := do
  let xrefKey ← t.int row Column.xrefHierarchyKey
  let (mapping, mappingIndex) ← t.inlineMapping row
  let logic := t.text? row Column.arithmeticLogic
  let operation := logic.bind Operation.read?
  let operand := t.text? row Column.formulaParamRef
  let constant ← t.number row Column.formulaParamConstant
  let precedence ← t.int row Column.formulaPrecedence
  let sortOrder ← t.int row Column.sortOrder
  let parentXrefKey ← t.int row Column.parentXrefKey
  let sorts ← t.levelSorts row Column.levelSort
  let flags ← t.flags row
  let levels := t.levels row
  return {
    number := row.number
    hierarchyId := t.text? row Column.hierarchyId
    name := t.text? row Column.hierarchyName
    description := t.text? row Column.description
    sortOrder := sortOrder
    xrefKey := xrefKey
    parentXrefKey := parentXrefKey
    levels := levels
    levelSorts := sorts
    flags := flags
    customFlags := t.customFlags row flagColumns
    formula := {
      groupName := t.text? row Column.formulaGroup
      operation := operation
      operationText := logic
      operands := if operand.isSome || constant.isSome then [operand.getD ""] else []
      precedences := [precedence]
      constants := [constant]
      expression := if operation.isNone then logic else none }
    filterGroups := t.filterGroups row
    mapping := mapping
    mappingIndex := mappingIndex
    metadata := legacyMetadata logic levels xrefKey }

/-- A row of a hierarchy file in the given dialect. -/
def hierarchyRow (t : Table) (dialect : Dialect) (flagColumns : List String) (row : Row) :
    Except ImportError HierarchyRow :=
  match dialect with
  | .standard => t.standardRow flagColumns row
  | .legacy => t.legacyRow flagColumns row

/-! ## Mapping rows -/

/-- A row of a mapping file. -/
def mappingRow (t : Table) (row : Row) : Except ImportError MappingRow := do
  let (mapping, mappingIndex) ← t.inlineMapping row
  match mapping with
  | none => throw (.badRow row.number "SOURCE_TABLE and SOURCE_COLUMN are both empty")
  | some mapping =>
    let included ← t.bool row Column.includeFlag
    let excluded ← t.bool row Column.excludeFlag
    let transformed ← t.bool row Column.transformFlag
    let active ← t.bool row Column.activeFlag
    let defaults : MappingFlags := {}
    let flags : MappingFlags :=
      ⟨included.getD defaults.included, excluded.getD defaults.excluded,
        transformed.getD defaults.transformed, active.getD defaults.active⟩
    return {
      number := row.number
      hierarchyId := t.text? row Column.hierarchyId
      mappingIndex := mappingIndex
      mapping := { mapping with flags := flags } }

end Rollup.Table

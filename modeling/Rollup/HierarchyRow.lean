import Rollup.Node

/-!
# Rows of hierarchy and mapping files

What a row says, after its cells have been read. Both dialects of hierarchy files are read into
the same shape; what a dialect does not carry stays empty.
-/

namespace Rollup

/-- The fixed flags that a row sets. -/
structure RowFlags where
  included : Option Bool := none
  excluded : Option Bool := none
  transformed : Option Bool := none
  calculated : Option Bool := none
  active : Option Bool := none
  leaf : Option Bool := none
  deriving DecidableEq, Repr

/-- The formula part of a row. Operands, precedences and constants are parallel lists: a row can
    carry several operands of one operation. -/
structure RowFormula where
  groupName : Option String := none
  operation : Option Operation := none
  operationText : Option String := none
  operands : List String := []
  precedences : List (Option Int) := []
  constants : List (Option Binary64) := []
  expression : Option String := none
  aggregation : Option Operation := none
  deriving DecidableEq, Repr

/-- Whether the row states an operation and something to apply it to. -/
def RowFormula.hasRuleData (f : RowFormula) : Bool :=
  f.operation.isSome && (!f.operands.isEmpty || !f.constants.isEmpty)

/-- A row of a hierarchy file. -/
structure HierarchyRow where
  number : Nat
  hierarchyId : Option String := none
  name : Option String := none
  description : Option String := none
  parentHierarchyId : Option String := none
  isRoot : Option Bool := none
  sortOrder : Option Int := none
  xrefKey : Option Int := none
  parentXrefKey : Option Int := none
  levels : List String := []
  levelSorts : List (Option Int) := []
  flags : RowFlags := {}
  customFlags : Dict Bool := []
  formula : RowFormula := {}
  filterGroups : Dict String := []
  mapping : Option SourceMapping := none
  mappingIndex : Option Int := none
  metadata : Dict Value := []
  deriving Repr

/-- A row of a mapping file. -/
structure MappingRow where
  number : Nat
  hierarchyId : Option String
  mappingIndex : Option Int
  mapping : SourceMapping
  deriving DecidableEq, Repr

end Rollup

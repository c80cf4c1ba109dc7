import Rollup.MappingList
import Rollup.RowGroup
import Rollup.Summary

/-!
# The node of a row group

The leading row counts first; later rows only fill gaps. Every row adds its formula operands.
-/

namespace Rollup.RowGroup

/-- The first value that some row has. -/
def firstOf {α : Type} (g : RowGroup) (pick : HierarchyRow → Option α) : Option α :=
  g.rows.findSome? pick

/-- The fixed flags: the first row that sets a flag decides. -/
def mergedFlags (g : RowGroup) : NodeFlags :=
  let defaults : NodeFlags := {}
  { included := (g.firstOf (·.flags.included)).getD defaults.included
    excluded := (g.firstOf (·.flags.excluded)).getD defaults.excluded
    transformed := (g.firstOf (·.flags.transformed)).getD defaults.transformed
    calculated := (g.firstOf (·.flags.calculated)).getD defaults.calculated
    active := (g.firstOf (·.flags.active)).getD defaults.active
    leaf := (g.firstOf (·.flags.leaf)).getD defaults.leaf }

/-- The custom flags: the first row that sets a flag decides. -/
def mergedCustomFlags (g : RowGroup) : CustomFlags :=
  (g.rows.flatMap (·.customFlags)).foldl
    (fun flags p => if (CustomFlags.get? p.1 flags).isNone then CustomFlags.set p.1 p.2 flags
      else flags)
    []

/-- The entries of several dictionaries; of several with one key the first one counts. -/
def firstEntries {α : Type} (entries : List (String × α)) : Dict α :=
  entries.foldl (fun d p => Dict.insertNew p.1 p.2 d) []

/-! ## Mappings -/

/-- Puts a mapping at its index into a list in ascending index order, unless one is there. -/
def insertMapping (m : SourceMapping) : List SourceMapping → List SourceMapping
  | [] => [m]
  | n :: rest =>
    if m.index < n.index then m :: n :: rest
    else if m.index = n.index then n :: rest
    else n :: insertMapping m rest

/-- The mappings of all rows in index order. A row without an index comes after the highest one
    so far, and the first mapping at an index stays. -/
def mergedMappings (g : RowGroup) : List SourceMapping :=
  g.rows.foldl
    (fun ms row =>
      match row.mapping with
      | none => ms
      | some m =>
        insertMapping { m with index := row.mappingIndex.getD (MappingList.nextIndex ms) } ms)
    []

/-! ## Formula -/

/-- The rule at a position of a row, after `count` rules, and a warning if its operation has to be
    assumed. A position without operand and constant has none. -/
def ruleAt (row : HierarchyRow) (count i : Nat) : Option (Rule × List String) :=
  let f := row.formula
  let operand := Text.trim ((f.operands[i]?).getD "")
  let constant := (f.constants[i]?).join
  if operand = "" && constant.isNone then none
  else
    some (
      { operation := f.operation.getD .sum
        operand := operand
        precedence := ((f.precedences[i]?).join).getD (count + 1)
        constant := constant },
      if f.operation.isNone then
        [rowLabel row.number ++ "formula operand '" ++ operand ++ "' has no operation, using SUM"]
      else [])

/-- Adds the rules of a row. -/
def addRules (acc : List Rule × List String) (row : HierarchyRow) : List Rule × List String :=
  let positions := max row.formula.operands.length row.formula.constants.length
  (List.range positions).foldl
    (fun acc i =>
      match ruleAt row acc.1.length i with
      | none => acc
      | some (rule, warnings) => (acc.1 ++ [rule], acc.2 ++ warnings))
    acc

/-- The rules of all rows and the warnings that they raise. -/
def rules (g : RowGroup) : List Rule × List String :=
  g.rows.foldl addRules ([], [])

/-- The formula of the group: there is one if some row has a label, a rule or an expression. The
    label defaults to the name of the node. -/
def formula? (g : RowGroup) : Option Formula :=
  let label := g.firstOf (·.formula.groupName)
  let expression := g.firstOf (·.formula.expression)
  if label.isNone && g.rules.1.isEmpty && expression.isNone then none
  else some ⟨label.getD g.name, g.hierarchyId, g.rules.1, expression⟩

/-! ## Node -/

/-- The node of the group, not yet linked to a parent. -/
def node (project : String) (g : RowGroup) : Node :=
  let filterGroups := firstEntries (g.rows.flatMap (·.filterGroups))
  { hierarchyId := g.hierarchyId
    projectId := project
    name := g.name
    description := g.firstOf (·.description)
    levelPath := g.path
    levelSorts := g.pathSorts
    sortOrder := (g.leader.sortOrder.or g.pathSorts.getLast?.join).getD 0
    flags := g.mergedFlags
    customFlags := g.mergedCustomFlags
    mappings := g.mergedMappings
    formula := g.formula?
    filter := if filterGroups.isEmpty then none else some { groups := filterGroups }
    xrefKey := g.leader.xrefKey
    metadata := firstEntries (g.rows.flatMap (·.metadata)) }

/-- The warnings that building the node raises. -/
def nodeWarnings (g : RowGroup) : List String :=
  g.rules.2

end Rollup.RowGroup

namespace Rollup.Placeholder

/-- The node of a placeholder, marked as such. -/
def node (project : String) (p : Placeholder) : Node :=
  { hierarchyId := p.hierarchyId
    projectId := project
    name := p.name
    levelPath := p.path
    levelSorts := p.sorts
    sortOrder := p.sorts.getLast?.join.getD 0
    metadata := [(Node.placeholderKey, .bool true)] }

end Rollup.Placeholder

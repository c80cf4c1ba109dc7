import Rollup.Buckets
import Rollup.Column.Layouts
import Rollup.Export.Keys
import Rollup.Export.Order
import Rollup.Layout
import Rollup.Literal
import Rollup.Text.Runs

/-!
# Exporting a hierarchy

A forest as a file in the standard layout. Every node that is no placeholder has a main row. The
rules of a formula with the operation of its first rule are folded into the main row, and each
further operation takes one more row below it.
-/

namespace Rollup

/-- How an export is written. -/
structure ExportOptions where
  syntheticXrefStart : Int := 1000
  maxLevels : Nat := Column.maxLevels
  deriving DecidableEq, Repr

namespace Export

/-- Cells to be filled in: column and value. -/
abbrev Cells := List (String × String)

/-- What the rows of an export share. -/
structure Sheet where
  forest : Forest
  levels : Nat
  exported : List Nat
  customFlags : List String
  keys : List (Nat × Int)
  childLabels : List (String × String)

namespace Sheet

/-- The exported nodes of a forest with their positions. -/
def exportedNodes (f : Forest) (exported : List Nat) : List (Nat × Node) :=
  exported.filterMap fun i => (f.nodes[i]?).map fun n => (i, n)

/-- The labels of totals under the id, or else the name, of each of their children. Totals of
    nodes with a formula are not written. -/
def totalLabels (nodes : List Node) : List (String × String) :=
  nodes.flatMap fun n =>
    match n.formula, n.total? with
    | none, some t => t.children.map fun c => (c.hierarchyId.getD c.name, t.groupName)
    | _, _ => []

/-- The sheet of a list of nodes. -/
def ofNodes (nodes : List Node) (options : ExportOptions) : Sheet :=
  let f := Forest.ofNodes nodes
  let exported := f.exportOrder.filter fun i => !((f.nodes[i]?).map (·.isPlaceholder)).getD true
  let written := exportedNodes f exported
  { forest := f
    levels := min (max options.maxLevels 1) Column.maxLevels
    exported := exported
    customFlags := Dict.sortedDistinct (written.flatMap fun p => Dict.keys p.2.customFlags)
    keys := ExportKeys.main (written.map fun p => (p.1, p.2.xrefKey))
    childLabels := totalLabels (written.map (·.2)) }

/-- The layout of the sheet. -/
def layout (s : Sheet) : Layout :=
  ⟨Column.standard s.levels ++ s.customFlags⟩

/-! ## Cells of a node -/

/-- The parent's hierarchy id, and its key if it has a row. -/
def parentCells (s : Sheet) (i : Nat) : Cells :=
  match s.forest.parent? i with
  | none => []
  | some p =>
    ((s.forest.nodes[p]?).map fun n => (Column.parentId, n.hierarchyId)).toList ++
      ((s.keys.lookup p).map fun key => (Column.parentXrefKey, toString key)).toList

/-- The names of the ancestors and of the node by level, with their sort values. The node's own
    level falls back to its sort order. -/
def levelCells (s : Sheet) (i : Nat) (n : Node) : Cells :=
  let chain := s.forest.lineage i
  (chain.take s.levels).zipIdx.flatMap fun p =>
    let name := ((s.forest.nodes[p.1]?).map (·.name)).getD ""
    let own := if p.2 + 1 = chain.length then some n.sortOrder else none
    let sort := ((n.levelSorts[p.2]?).join).or own
    (Column.level (p.2 + 1), name) ::
      (sort.map fun k => (Column.levelOrder (p.2 + 1), toString k)).toList

/-- The flags of the node. A node that has children is no leaf. -/
def flagCells (s : Sheet) (i : Nat) (n : Node) : Cells :=
  let hasChildren := (s.forest.children i).any (· ≠ i)
  [(Column.includeFlag, Literal.boolText n.flags.included),
   (Column.excludeFlag, Literal.boolText n.flags.excluded),
   (Column.transformFlag, Literal.boolText n.flags.transformed),
   (Column.calculationFlag, Literal.boolText n.flags.calculated),
   (Column.activeFlag, Literal.boolText n.flags.active),
   (Column.isLeafNode, Literal.boolText (n.flags.leaf && !hasChildren))]

/-- The cells that all rows of a node share. -/
def sharedCells (s : Sheet) (i : Nat) (n : Node) : Cells :=
  [(Column.hierarchyId, n.hierarchyId), (Column.hierarchyName, n.name),
   (Column.description, n.description.getD ""), (Column.isRoot, Literal.boolText n.isRoot),
   (Column.sortOrder, toString n.sortOrder)] ++
    ((s.keys.lookup i).map fun key => (Column.xrefKey, toString key)).toList ++
    s.parentCells i ++ s.levelCells i n ++ s.flagCells i n ++
    (n.filter.map (·.groups)).getD [] ++
    s.customFlags.map fun flag =>
      (flag, Literal.boolText ((CustomFlags.get? flag n.customFlags).getD false))

/-! ## Formula cells -/

/-- Several values in one cell. -/
def joined (values : List String) : String :=
  Text.join (String.singleton Column.valueSeparator) values

/-- The cells of the rules with one operation. -/
def ruleCells (operation : Operation) (rules : List Rule) : Cells :=
  [(Column.formulaOperation, operation.keyword),
   (Column.formulaOperand, joined (rules.map (·.operand))),
   (Column.formulaPrecedence, joined (rules.map fun r => toString r.precedence))] ++
    if rules.any (·.constant.isSome) then
      [(Column.formulaConstant,
        joined (rules.map fun r => (r.constant.map Binary64.text).getD ""))]
    else []

/-- The rules by operation, in the order in which the operations first occur. -/
def rulesByOperation (rules : List Rule) : List (Operation × List Rule) :=
  buckets (rules.map fun r => (r.operation, r))

/-- The formula cells of the main row of a node. -/
def mainFormulaCells (s : Sheet) (n : Node) : Cells :=
  match n.formula, n.total? with
  | some f, _ =>
    (Column.formulaGroupName, f.groupName) ::
      (f.expression.map fun e => (Column.formulaExpression, e)).toList ++
      ((rulesByOperation f.rules).head?.map fun b => ruleCells b.1 b.2).getD []
  | none, some t =>
    [(Column.formulaGroupName, t.groupName), (Column.aggregation, t.aggregation.keyword)]
  | none, none =>
    (((s.childLabels.lookup n.hierarchyId).or (s.childLabels.lookup n.name)).map fun label =>
      (Column.formulaGroupName, label)).toList

end Sheet

/-- The number of rows of a node besides its main row: one for each further operation. -/
def extraRows (n : Node) : Nat :=
  match n.formula with
  | none => 0
  | some f => (Sheet.rulesByOperation f.rules).length - 1

namespace Sheet

/-- The formula cells of the further rows of a node, which have the given keys. -/
def extraFormulaCells (n : Node) (key : Nat → Int) : List Cells :=
  match n.formula with
  | none => []
  | some f =>
    ((rulesByOperation f.rules).drop 1).zipIdx.map fun p =>
      [(Column.xrefKey, toString (key p.2)), (Column.formulaGroupName, f.groupName)] ++
        ruleCells p.1.1 p.1.2

/-! ## Rows -/

/-- The rows of one node, the main row first; the further rows have the given keys. -/
def nodeRecords (s : Sheet) (key : Nat → Int) (i : Nat) (n : Node) : List (List String) :=
  let l := s.layout
  let shared := l.fill (s.sharedCells i n) l.blank
  l.fill (s.mainFormulaCells n) shared ::
    (extraFormulaCells n key).map fun cells => l.fill cells shared

/-- The keys of the main rows. -/
def mainKeys (s : Sheet) : List Int :=
  s.keys.map (·.2)

/-- The rows of a list of nodes; further rows take their keys from `next` on. -/
def recordsFrom (s : Sheet) : (next : Int) → List (Nat × Node) → List (List String)
  | _, [] => []
  | next, (i, n) :: rest =>
    s.nodeRecords (ExportKeys.further s.mainKeys next) i n ++
      recordsFrom s (ExportKeys.after s.mainKeys (extraRows n) next) rest

/-- All rows of the sheet. -/
def records (s : Sheet) (options : ExportOptions) : List (List String) :=
  s.recordsFrom (ExportKeys.firstExtra options.syntheticXrefStart s.keys)
    (exportedNodes s.forest s.exported)

end Sheet

/-- The text of a hierarchy file with the given nodes. -/
def hierarchy (nodes : List Node) (options : ExportOptions) : String :=
  let s := Sheet.ofNodes nodes options
  s.layout.write (s.records options)

end Export

end Rollup

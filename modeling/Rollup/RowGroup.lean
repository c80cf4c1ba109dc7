import Rollup.HierarchyRow
import Rollup.LevelPath
import Rollup.Sort

/-!
# Groups of rows

A node can have several rows, because every further operation of its formula takes one. The rows
of a node form a group, led by its main row.
-/

namespace Rollup

/-- The rows of one node. -/
structure RowGroup where
  hierarchyId : String
  name : String
  path : List String
  pathSorts : List (Option Int)
  leader : HierarchyRow
  others : List HierarchyRow
  deriving Repr

namespace RowGroup

/-- All rows, the leader first. -/
def rows (g : RowGroup) : List HierarchyRow :=
  g.leader :: g.others

/-- The number of the leading row, which stands for the group in messages. -/
def number (g : RowGroup) : Nat :=
  g.leader.number

/-- The cross-reference keys of all rows. -/
def xrefs (g : RowGroup) : List Int :=
  g.rows.filterMap (·.xrefKey)

/-- The least row number of the group. -/
def firstNumber (g : RowGroup) : Nat :=
  g.others.foldl (fun n r => min n r.number) g.leader.number

end RowGroup

/-- Whether `a` may lead `b`: rows with a cross-reference key come first, lower keys in front, and
    then the file order decides. -/
def HierarchyRow.leads (a b : HierarchyRow) : Bool :=
  match a.xrefKey, b.xrefKey with
  | some x, some y => x < y || (x == y && a.number ≤ b.number)
  | some _, none => true
  | none, some _ => false
  | none, none => a.number ≤ b.number

/-- The rows of a group in the order of leadership. -/
def leadershipOrder (rows : List HierarchyRow) : List HierarchyRow :=
  stableSort HierarchyRow.leads rows

/-- An ancestor that no row describes. -/
structure Placeholder where
  hierarchyId : String
  name : String
  path : List String
  sorts : List (Option Int)
  deriving DecidableEq, Repr

end Rollup

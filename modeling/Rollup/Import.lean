import Rollup.HierarchyRow.Read
import Rollup.Import.Persist

/-!
# Importing hierarchy files

From a table to stored nodes. What is wrong with single rows is reported and does not stop the
import.
-/

namespace Rollup.Import

/-- Imports the rows of a file into a project, where repeated labels are searched in the given
    order. Leaves are marked unless the file marks them itself. -/
def rowsIn (order : TotalPlan.SearchOrder) (g : WriteGuard) (s : Store) (project : String)
    (d : Dialect) (w : Window) (marksLeaves : Bool) (rs : List HierarchyRow) : Store × Summary :=
  let (plan, planned) := ImportPlan.ofRowsIn order project d w rs
  let (batch, assembled) := plan.assemble (s.nodesOf project)
  let (linked, linkWarnings) := batch.link d plan.groups
  let marked := if marksLeaves then linked else linked.markLeaves
  let (store, persisted) := marked.persist g plan.groups s
  (store, ((planned.merge assembled).addWarnings linkWarnings).merge persisted)

/-- Imports the rows of a file into a project. -/
def rows (g : WriteGuard) (s : Store) (project : String) (d : Dialect) (w : Window)
    (marksLeaves : Bool) (rs : List HierarchyRow) : Store × Summary :=
  rowsIn .asUsed g s project d w marksLeaves rs

/-- Imports a table into a project, where repeated labels are searched in the given order. -/
def tableIn (order : TotalPlan.SearchOrder) (g : WriteGuard) (s : Store) (project : String)
    (d : Dialect) (w : Window) (t : Table) : Except ImportError (Store × Summary) :=
  if s.hasProject project then
    let outcomes := t.rows.map (t.hierarchyRow d (t.customFlagColumns d))
    let rowErrors := outcomes.filterMap fun
      | .error e => some e.message
      | .ok _ => none
    let (store, summary) := rowsIn order g s project d w (t.hasColumn Column.isLeafNode)
      (outcomes.filterMap Except.toOption)
    .ok (store, ({ errors := t.problems ++ rowErrors } : Summary).merge summary)
  else .error (.projectNotFound project)

/-- Imports a table into a project. -/
def table (g : WriteGuard) (s : Store) (project : String) (d : Dialect) (w : Window) (t : Table) :
    Except ImportError (Store × Summary) :=
  tableIn .asUsed g s project d w t

end Rollup.Import

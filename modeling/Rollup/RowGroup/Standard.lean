import Rollup.Buckets
import Rollup.RowGroup
import Rollup.Summary
import Rollup.Text.Slug

/-!
# Grouping standard rows

Rows with a hierarchy id are grouped by it. A row without one joins the group of the first row
with an id that has its name, wherever that row stands; if there is none, the rows of that name
form a group of their own.
-/

namespace Rollup.RowGroup.Standard

/-- What holds the rows of a standard group together. -/
inductive Key where
  | id (hierarchyId : String)
  | name (name : String)
  deriving DecidableEq, Repr

/-- The name that a row is grouped by: its own, else that of its deepest level. -/
def rowName (w : Window) (row : HierarchyRow) : Option String :=
  row.name.or (LevelPath.resolve w row.levels).getLast?

/-- The rows with a hierarchy id, keyed by it. -/
def withId (rows : List HierarchyRow) : List (Key × HierarchyRow) :=
  rows.filterMap fun row => row.hierarchyId.map fun h => (.id h, row)

/-- The keys of the names that rows with an id have, in file order. -/
def namedKeys (w : Window) (rows : List HierarchyRow) : List (String × Key) :=
  rows.filterMap fun row =>
    match row.hierarchyId, rowName w row with
    | some h, some name => some (name, .id h)
    | _, _ => none

/-- The rows without an id, keyed by the group of their name; a row without any name is an
    error. -/
def withoutId (w : Window) (named : List (String × Key)) (rows : List HierarchyRow) :
    List (Key × HierarchyRow) × List String :=
  let idLess := rows.filter (·.hierarchyId.isNone)
  (idLess.filterMap fun row =>
      (rowName w row).map fun name => ((named.lookup name).getD (.name name), row),
    idLess.filterMap fun row =>
      if (rowName w row).isNone then
        some (rowLabel row.number ++ "no HIERARCHY_ID, HIERARCHY_NAME or LEVEL value")
      else none)

/-- The group of a bucket of rows, or why it is none. -/
def ofBucket (w : Window) (key : Key) (rows : List HierarchyRow) :
    Option (Except String RowGroup) :=
  match leadershipOrder rows with
  | [] => none
  | leader :: others =>
    let ownName := ((leader :: others).findSome? (·.name)).or (rowName w leader)
    let (hierarchyId, name) := match key with
      | .id h => (h, ownName.getD h)
      | .name n => (Text.slug (ownName.getD n), ownName.getD n)
    if hierarchyId = "" then
      some (.error (rowLabel leader.number ++ "cannot derive a HIERARCHY_ID from name '" ++ name ++
        "'"))
    else
      some (.ok {
        hierarchyId := hierarchyId
        name := name
        path := LevelPath.resolve w leader.levels
        pathSorts := LevelPath.resolveSorts w leader.levels leader.levelSorts
        leader := leader
        others := others })

/-- The groups of standard rows in the order of their first rows, and the errors of the rows that
    belong to none. -/
def group (w : Window) (rows : List HierarchyRow) : List RowGroup × List String :=
  let (idLess, nameless) := withoutId w (namedKeys w rows) rows
  let outcomes := (buckets (withId rows ++ idLess)).filterMap fun b => ofBucket w b.1 b.2
  let groups := outcomes.filterMap Except.toOption
  let unnamed := outcomes.filterMap fun
    | .error message => some message
    | .ok _ => none
  (stableSort (fun a b => a.firstNumber ≤ b.firstNumber) groups, nameless ++ unnamed)

end Rollup.RowGroup.Standard

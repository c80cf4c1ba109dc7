import Rollup.Buckets
import Rollup.Node
import Rollup.RowGroup
import Rollup.Summary
import Rollup.Text.Slug

/-!
# Grouping legacy rows

Legacy rows are identified by their level path. Ancestors that no row describes are filled in as
placeholders, so that together they cover every leading part of every path.
-/

namespace Rollup.RowGroup.Legacy

/-- The path of a row: its levels, or its name if it has none. -/
def rowPath (w : Window) (row : HierarchyRow) : List String :=
  match LevelPath.resolve w row.levels with
  | [] => row.name.toList
  | path => path

/-- The group of a bucket of rows with one path. -/
def ofBucket (w : Window) (path : List String) (rows : List HierarchyRow) : Option RowGroup :=
  match leadershipOrder rows with
  | [] => none
  | leader :: others =>
    some {
      hierarchyId := ((leader :: others).findSome? (·.hierarchyId)).getD (Text.slugPath path)
      name := (path.getLast?.or leader.name).getD ""
      path := path
      pathSorts :=
        if (LevelPath.resolve w leader.levels).isEmpty then [leader.sortOrder]
        else LevelPath.resolveSorts w leader.levels leader.levelSorts
      leader := leader
      others := others }

/-- The groups of legacy rows in the order of their first rows, and the errors of the rows that
    have no path. -/
def group (w : Window) (rows : List HierarchyRow) : List RowGroup × List String :=
  let keyed := rows.map fun row => (rowPath w row, row)
  ((buckets (keyed.filter (·.1 ≠ []))).filterMap fun b => ofBucket w b.1 b.2,
    keyed.filterMap fun p =>
      if p.1 = [] then some (rowLabel p.2.number ++ "no LEVEL value or HIERARCHY_NAME") else none)

/-! ## Missing ancestors -/

/-- A list cut or padded with `none` to the given length. -/
def fit {α : Type} (n : Nat) (xs : List (Option α)) : List (Option α) :=
  xs.take n ++ List.replicate (n - xs.length) none

/-- The placeholder of an ancestor of a group. -/
def placeholder (g : RowGroup) (ancestor : List String) : Placeholder :=
  { hierarchyId := Node.placeholderMark ++ Text.slugPath ancestor
    name := ancestor.getLast?.getD ""
    path := ancestor
    sorts := fit ancestor.length g.pathSorts }

/-- The placeholders of the ancestors of all groups, each path once, in the order in which the
    groups need them. -/
def discovered (groups : List RowGroup) : List Placeholder :=
  let present := groups.map (·.path)
  groups.foldl
    (fun found g =>
      (LevelPath.ancestors g.path).foldl
        (fun found ancestor =>
          if ancestor ∈ present || found.any (·.path == ancestor) then found
          else found ++ [placeholder g ancestor])
        found)
    []

/-- The ancestors of the groups that no row describes, shallowest first. -/
def missingAncestors (groups : List RowGroup) : List Placeholder :=
  stableSort (fun a b => a.path.length ≤ b.path.length) (discovered groups)

end Rollup.RowGroup.Legacy

import Rollup.Format
import Rollup.RowGroup.Legacy
import Rollup.RowGroup.Standard

/-!
# Grouping by dialect

What the two dialects do differently when rows become groups: how rows are brought together, and
whether missing ancestors are filled in.
-/

namespace Rollup.Dialect

/-- The groups of the rows of a file, and the errors of the rows that belong to none. -/
def group (d : Dialect) (w : Window) (rows : List HierarchyRow) : List RowGroup × List String :=
  match d with
  | standard => RowGroup.Standard.group w rows
  | legacy => RowGroup.Legacy.group w rows

/-- The placeholders that the groups need; standard files have none. -/
def missingAncestors (d : Dialect) (groups : List RowGroup) : List Placeholder :=
  match d with
  | standard => []
  | legacy => RowGroup.Legacy.missingAncestors groups

end Rollup.Dialect

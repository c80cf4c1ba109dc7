import Rollup.Text.Case
import Rollup.Text.Letter
import Rollup.Text.Runs

/-!
# Identifiers derived from names

A slug keeps the letters and numbers of a name in upper case and puts one underscore wherever
something else stood between them: `Net Sales (EU)` becomes `NET_SALES_EU`. The slug of a path
joins the slugs of its segments with two underscores.
-/

namespace Rollup.Text

/-- The slug of a name: its runs of letters and numbers in upper case, joined by underscores. -/
def slug (name : String) : String :=
  join "_" ((runs isLetterOrNumber name.toList).map fun run =>
    String.ofList (run.flatMap upperChar))

/-- The slug of a path: the slugs of its segments that have one, joined by double underscores. -/
def slugPath (path : List String) : String :=
  join "__" ((path.map slug).filter (· ≠ ""))

end Rollup.Text

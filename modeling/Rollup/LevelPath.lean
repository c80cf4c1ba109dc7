import Rollup.Column.Layouts
import Rollup.Literal

/-!
# Level paths

A row names its place in the tree by its level cells. The path of a row takes the cells inside
the level window, drops blank ones and collapses a name repeated by its successor into one step.
Each step keeps the sort value of the first column of its run.
-/

namespace Rollup

/-- A range of level columns, counted from one, both ends included. -/
structure Window where
  first : Nat
  last : Nat
  deriving DecidableEq, Repr

namespace Window

/-- The levels that standard files use. -/
def standard : Window := ⟨1, 9⟩

/-- The levels that legacy files use: their first level is a label of the whole project. -/
def legacy : Window := ⟨2, 9⟩

/-- A window written as `first-last`, within the levels that a file can have. -/
def read? (raw : String) : Option Window := do
  let (first, last) ← Text.splitOnce? '-' (Text.trim raw)
  let first ← Literal.plainNat? (Text.trim first)
  let last ← Literal.plainNat? (Text.trim last)
  if first = 0 ∨ last < first ∨ Column.maxLevels < last then none else some ⟨first, last⟩

/-- Whether the column at position `i`, counted from zero, is inside the window. -/
def covers (w : Window) (i : Nat) : Bool :=
  w.first ≤ i + 1 && i + 1 ≤ w.last

end Window

namespace LevelPath

/-- The first step of each run of equal neighbouring names; `last` is the name just before. -/
def collapseAfter : (last : Option String) → List (Nat × String) → List (Nat × String)
  | _, [] => []
  | last, step :: rest =>
    if last = some step.2 then collapseAfter last rest
    else step :: collapseAfter (some step.2) rest

/-- The non-blank cells of the window with their positions, trimmed. -/
def cells (w : Window) (levels : List String) : List (Nat × String) :=
  ((levels.zipIdx.filter fun p => w.covers p.2).map fun p => (p.2, Text.trim p.1)).filter
    fun step => step.2 ≠ ""

/-- The steps of the path: the position of the first column of each run, and its name. -/
def steps (w : Window) (levels : List String) : List (Nat × String) :=
  collapseAfter none (cells w levels)

/-- The path of a row's level cells. -/
def resolve (w : Window) (levels : List String) : List String :=
  (steps w levels).map (·.2)

/-- The sort values of the steps of the path. -/
def resolveSorts (w : Window) (levels : List String) (sorts : List (Option Int)) :
    List (Option Int) :=
  (steps w levels).map fun step => sorts[step.1]?.join

/-- The path without its last step; a path of at most one step has none. -/
def parent? (path : List String) : Option (List String) :=
  if 1 < path.length then some path.dropLast else none

/-- The proper, non-empty leading parts of a path, shortest first. -/
def ancestors (path : List String) : List (List String) :=
  (List.range' 1 (path.length - 1)).map fun n => path.take n

end LevelPath

end Rollup

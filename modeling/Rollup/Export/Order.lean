import Rollup.Forest
import Rollup.Sort

/-!
# The order of an export

Trees are written in preorder. Roots come first, by sort order and arrival, each followed by its
subtree; a node whose parent is missing or is the node itself counts as a root. Nodes that no
root reaches lie on or below a cycle and follow in the order of arrival.
-/

namespace Rollup.Forest

/-- Positions by the sort order of their nodes; equal ones keep their order. -/
def bySortOrder (f : Forest) (positions : List Nat) : List Nat :=
  let key := fun i => ((f.nodes[i]?).map (·.sortOrder)).getD 0
  stableSort (fun i j => key i ≤ key j) positions

/-- The positions of the roots in order. -/
def roots (f : Forest) : List Nat :=
  f.bySortOrder ((List.range f.size).filter fun i =>
    match f.parent? i with
    | none => true
    | some p => p = i)

/-- The children of a node other than itself, in order. -/
def offspring (f : Forest) (i : Nat) : List Nat :=
  f.bySortOrder ((f.children i).filter (· ≠ i))

/-- Visits the positions on a stack: a new one is followed by its offspring, one that is in
    `order` already is passed over. -/
def walk (f : Forest) : (steps : Nat) → (stack order : List Nat) → List Nat
  | 0, _, order => order
  | _, [], order => order
  | steps + 1, i :: stack, order =>
    if i ∈ order then walk f steps stack order
    else walk f steps (f.offspring i ++ stack) (order ++ [i])

/-- The positions in the order of an export. Every position is on the stack at most twice: as a
    start, and as a root or the child of its parent. -/
def exportOrder (f : Forest) : List Nat :=
  f.walk (2 * f.size) (f.roots ++ List.range f.size) []

end Rollup.Forest

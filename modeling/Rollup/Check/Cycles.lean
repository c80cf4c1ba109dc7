import Rollup.Finding
import Rollup.Forest
import Rollup.Text.Runs

/-!
# Cycles of parent links

Every node is entered once. A walk follows the parent links from a node that no earlier walk has
passed, until it leaves the forest, meets a node that was passed before, or comes back to a node of
its own path; only the last closes a cycle.
-/

namespace Rollup

namespace Forest

/-- The outcome of a walk: its path in walking order, and the node of the path that it came back
    to, if it did. -/
structure Ascent where
  path : List Nat
  back : Option Nat
  deriving DecidableEq, Repr

/-- Continues a walk at `i`, for at most the given number of steps. -/
def ascendFrom (f : Forest) (passed : List Nat) : (steps : Nat) → (path : List Nat) → Nat → Ascent
  | 0, path, _ => ⟨path, none⟩
  | steps + 1, path, i =>
    if i ∈ path then ⟨path, some i⟩
    else if i ∈ passed then ⟨path, none⟩
    else match f.parent? i with
      | none => ⟨path ++ [i], none⟩
      | some p => ascendFrom f passed steps (path ++ [i]) p

/-- The walk from `i`. A path has no repeats, so it takes at most one step more than there are
    nodes. -/
def ascend (f : Forest) (passed : List Nat) (i : Nat) : Ascent :=
  f.ascendFrom passed (f.size + 1) [] i

/-- The cycle that a walk closes: its path from the node it came back to. -/
def Ascent.cycle? (w : Ascent) : Option (List Nat) :=
  w.back.map fun i => w.path.dropWhile (· ≠ i)

/-- The cycles met by walks from the given starts, and the nodes passed. -/
def cyclesFrom (f : Forest) : (passed : List Nat) → (starts : List Nat) → List (List Nat)
  | _, [] => []
  | passed, i :: rest =>
    if i ∈ passed then cyclesFrom f passed rest
    else
      let w := f.ascend passed i
      w.cycle?.toList ++ cyclesFrom f (passed ++ w.path) rest

/-- All cycles, each as its members in the order of the links. -/
def cycles (f : Forest) : List (List Nat) :=
  f.cyclesFrom [] (List.range f.size)

end Forest

namespace Check

/-- The finding for a cycle. -/
def circularReference (f : Forest) (cycle : List Nat) : Finding :=
  let members := cycle.filterMap (f.nodes[·]?)
  let ids := members.map (·.hierarchyId)
  { kind := .circularReference
    severity := .error
    node := members.head?.map Node.ref
    message := "circular parent reference: " ++ Text.join " -> " (ids ++ ids.take 1)
    details := .object [("cycle", .texts ids)] }

/-- One finding for every cycle of parent links. -/
def cycles (f : Forest) : List Finding :=
  f.cycles.map (circularReference f)

end Check

end Rollup

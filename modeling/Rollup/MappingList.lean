import Rollup.Node
import Rollup.Sort

/-!
# The mappings of a node

The mappings of a node are kept in ascending index order and addressed by index. Indexes are taken to
stay below the greatest number of 64 bits.
-/

namespace Rollup

/-- What putting a mapping on a node did. -/
inductive MappingChange where
  | inserted
  | replaced
  | unchanged
  deriving DecidableEq, Repr

namespace MappingList

/-- One more than the highest index; the first mapping gets the index one. -/
def nextIndex : List SourceMapping → Int
  | [] => 1
  | m :: rest => rest.foldl (fun i n => max i n.index) m.index + 1

/-- Replaces the first mapping with the index of `m`, and says what was there. -/
def replace (m : SourceMapping) : List SourceMapping → Option (SourceMapping × List SourceMapping)
  | [] => none
  | n :: rest =>
    if n.index = m.index then some (n, m :: rest)
    else (replace m rest).map fun (old, rest) => (old, n :: rest)

/-- In ascending index order. -/
def sort (ms : List SourceMapping) : List SourceMapping :=
  stableSort (fun a b => a.index ≤ b.index) ms

/-- Puts a mapping at an index, or after the highest one. -/
def put (index : Option Int) (m : SourceMapping) (ms : List SourceMapping) :
    List SourceMapping × MappingChange :=
  let m := { m with index := index.getD (nextIndex ms) }
  match replace m ms with
  | none => (sort (ms ++ [m]), .inserted)
  | some (old, ms') => (sort ms', if old = m then .unchanged else .replaced)

end MappingList

end Rollup

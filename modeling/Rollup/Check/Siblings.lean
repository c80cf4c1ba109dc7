import Rollup.Finding
import Rollup.Forest
import Rollup.Text.Runs

/-!
# Consistency among siblings

If most of the mapped children of a node read from one table, the others are reported. Which shares
are below the threshold is up to the one who runs the check.
-/

namespace Rollup.Check

/-- A child of a node with the tables it reads from, in order and each once. -/
structure MappedChild where
  node : Node
  tables : List String
  deriving Repr

/-- The tables that a node reads from, compared trimmed and in upper case. -/
def tablesOf (n : Node) : List String :=
  Dict.sortedDistinct
    ((n.mappings.map fun m => Text.upper (Text.trim m.table)).filter (· ≠ ""))

/-- The children of the node at a position that read from some table. -/
def mappedChildren (f : Forest) (i : Nat) : List MappedChild :=
  ((f.children i).filterMap (f.nodes[·]?)).filterMap fun n =>
    match tablesOf n with
    | [] => none
    | tables => some ⟨n, tables⟩

/-- How many children read from a table. -/
def useCount (children : List MappedChild) (table : String) : Nat :=
  children.countP (·.tables.contains table)

/-- The table that most children read from, the first one in order among equals. -/
def dominantTable? (children : List MappedChild) : Option String :=
  (Dict.sortedDistinct (children.flatMap (·.tables))).foldl
    (fun best table =>
      match best with
      | none => some table
      | some b => if useCount children b < useCount children table then some table else some b)
    none

/-- The finding for a child that does not read from the dominant table. -/
def patternInconsistency (parent : Node) (dominant : String) (share : Binary64) (c : MappedChild) :
    Finding :=
  { kind := .patternInconsistency
    severity := .info
    node := some c.node.ref
    message := "'" ++ c.node.name ++ "' maps to " ++ Text.join ", " c.tables ++ " while " ++
      toString (share.scale 100).roundedMagnitude ++ "% of its siblings use " ++ dominant
    details := .object [("parentHierarchyId", .text parent.hierarchyId),
      ("dominantTable", .text dominant), ("share", .number share), ("tables", .texts c.tables)] }

/-- The findings for the children of one node: there are some only if the dominant table's share is
    not below the threshold and not all children use it. -/
def minority (f : Forest) (below : Binary64 → Bool) (parent : Node) (i : Nat) : List Finding :=
  let children := mappedChildren f i
  match dominantTable? children with
  | none => []
  | some dominant =>
    let count := useCount children dominant
    let share := Binary64.ofRatio count children.length
    if children.length < 2 ∨ below share ∨ count = children.length then []
    else (children.filter (!·.tables.contains dominant)).map
      (patternInconsistency parent dominant share)

/-- The findings for the children of every node. -/
def patternConsistency (f : Forest) (below : Binary64 → Bool) : List Finding :=
  f.nodes.zipIdx.flatMap fun (n, i) => minority f below n i

end Rollup.Check

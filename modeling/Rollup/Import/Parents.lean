import Rollup.Import.Assembly

/-!
# Linking parents

Every new node is proposed a parent by the keys of its leading row or by its path. A link is made
unless it would close a cycle with the links made before it.
-/

namespace Rollup

namespace Batch

/-- A position other than `i`: no node is its own parent. -/
def except (i : Nat) (candidate : Option Nat) : Option Nat :=
  candidate.filter (· != i)

/-- How messages name the node at a position. -/
def label (groups : List RowGroup) (e : BatchEntry) : String :=
  match e.group.bind (groups[·]?) with
  | some g => rowLabel g.number ++ "'" ++ e.node.hierarchyId ++ "'"
  | none => "placeholder '" ++ e.node.hierarchyId ++ "'"

/-- The parent that the cross-reference key of a row names. -/
def byParentXref? (b : Batch) (i : Nat) (row : HierarchyRow) : Option Nat :=
  row.parentXrefKey.bind fun key => except i (b.byXref? key)

/-- The parent that the hierarchy id of a row names. -/
def byParentId? (b : Batch) (i : Nat) (row : HierarchyRow) : Option Nat :=
  row.parentHierarchyId.bind fun h => except i (b.byId? h)

/-- The warning about a cross-reference key that names no parent. -/
def xrefWarning (row : HierarchyRow) (name : String) : List String :=
  row.parentXrefKey.toList.map fun key =>
    rowLabel row.number ++ "PARENT_XREF_KEY " ++ toString key ++ " of '" ++ name ++ "' not found"

/-- The warning about a hierarchy id that names no parent. -/
def idWarning (row : HierarchyRow) (name : String) : List String :=
  row.parentHierarchyId.toList.map fun h =>
    rowLabel row.number ++ "PARENT_ID '" ++ h ++ "' of '" ++ name ++ "' not found"

/-- The parent of a standard node: by key, by id, and then by path unless the row says that it is a
    root. Keys that lead nowhere are warned about. -/
def standardParent (b : Batch) (i : Nat) (e : BatchEntry) (leader : Option HierarchyRow) :
    Option Nat × List String :=
  let byPath := (LevelPath.parent? e.path).bind fun path => except i (b.byPath? path)
  match leader with
  | none => (byPath, [])
  | some row =>
    match b.byParentXref? i row with
    | some p => (some p, [])
    | none =>
      let noXref := xrefWarning row e.node.name
      match b.byParentId? i row with
      | some p => (some p, noXref)
      | none =>
        let warnings := noXref ++ idWarning row e.node.name
        if row.isRoot = some true then (none, warnings) else (byPath, warnings)

/-- The parent of a legacy node by its path, else by the depth and the name of its parent step. -/
def legacyPathParent (b : Batch) (i : Nat) (e : BatchEntry) : Option Nat × List String :=
  match LevelPath.parent? e.path with
  | none => (none, [])
  | some path =>
    let found := (except i (b.byPath? path)).or
      (path.getLast?.bind fun name => except i (b.byDepthName? path.length name))
    (found,
      if found.isSome then []
      else ["parent '" ++ Text.join " > " path ++ "' of '" ++ e.node.name ++ "' not found"])

/-- The parent of a legacy node: by key, then by path. -/
def legacyParent (b : Batch) (i : Nat) (e : BatchEntry) (leader : Option HierarchyRow) :
    Option Nat × List String :=
  match leader with
  | none => b.legacyPathParent i e
  | some row =>
    match b.byParentXref? i row with
    | some p => (some p, [])
    | none =>
      let (found, warnings) := b.legacyPathParent i e
      (found, xrefWarning row e.node.name ++ warnings)

/-- The parent that a dialect proposes for the node at a position, and the warnings about keys
    that lead nowhere. -/
def proposedParent (b : Batch) (d : Dialect) (groups : List RowGroup) (i : Nat) (e : BatchEntry) :
    Option Nat × List String :=
  let leader := (e.group.bind (groups[·]?)).map (·.leader)
  match d with
  | .standard => b.standardParent i e leader
  | .legacy => b.legacyParent i e leader

/-- Links the node at a position to its proposed parent, or leaves it a root if that would close a
    cycle. -/
def linkOne (d : Dialect) (groups : List RowGroup) (acc : Batch × List String) (i : Nat) :
    Batch × List String :=
  let (b, warnings) := acc
  match b.entries[i]? with
  | none => acc
  | some e =>
    match b.proposedParent d groups i e with
    | (none, raised) => (b, warnings ++ raised)
    | (some p, raised) =>
      if b.wouldCycle i p then
        let target := ((b.entries[p]?).map (·.node.hierarchyId)).getD ""
        (b, warnings ++ raised ++ [label groups e ++ ": linking to '" ++ target ++
          "' would create a cycle, kept as root"])
      else (b.modify i fun e => { e with parent := some p }, warnings ++ raised)

/-- Links all new nodes in order. -/
def link (b : Batch) (d : Dialect) (groups : List RowGroup) : Batch × List String :=
  b.newPositions.foldl (linkOne d groups) (b, [])

/-- Marks the new nodes as leaves exactly if no new node is linked below them. -/
def markLeaves (b : Batch) : Batch :=
  let parents := b.newPositions.filterMap b.parent?
  { b with entries := b.entries.zipIdx.map fun (e, i) =>
      if e.origin = .stored then e
      else { e with node := { e.node with
        flags := { e.node.flags with leaf := !parents.contains i } } } }

end Batch

end Rollup

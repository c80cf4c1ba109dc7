import Rollup.Batch
import Rollup.Conflict
import Rollup.Reference
import Rollup.RowGroup.Build
import Rollup.RowGroup.Grouping
import Rollup.RowGroup.Total

/-!
# Assembling a batch

From row groups to a batch: groups whose hierarchy id is taken are skipped, the others become
nodes, placeholders fill the gaps above them, totals are put on, and references are resolved.
-/

namespace Rollup

/-- The row groups of a file, with the totals and the placeholders that they call for. -/
structure ImportPlan where
  project : String
  dialect : Dialect
  groups : List RowGroup
  totals : List TotalPlan
  placeholders : List Placeholder
  deriving Repr

namespace ImportPlan

/-- The plan for the rows of a file, and what is to be reported of them, where repeated labels are
    searched in the given order. -/
def ofRowsIn (order : TotalPlan.SearchOrder) (project : String) (d : Dialect) (w : Window)
    (rows : List HierarchyRow) : ImportPlan × Summary :=
  let (groups, errors) := d.group w rows
  let (totals, warnings) := TotalPlan.planIn order groups
  (⟨project, d, groups, totals, d.missingAncestors groups⟩,
    { errors := errors, warnings := warnings })

/-- The plan for the rows of a file, and what is to be reported of them. -/
def ofRows (project : String) (d : Dialect) (w : Window) (rows : List HierarchyRow) :
    ImportPlan × Summary :=
  ofRowsIn .asUsed project d w rows

/-- The hierarchy ids of the groups, by position. -/
def keys (p : ImportPlan) : List (Nat × String) :=
  p.groups.zipIdx.map fun (g, i) => (i, g.hierarchyId)

/-- The groups whose hierarchy id an earlier group of the file has. -/
def repeats (p : ImportPlan) : List (Nat × String) :=
  Conflict.repeats p.keys

/-- The other groups whose hierarchy id is stored, with the position of the stored node. -/
def existing (p : ImportPlan) (stored : Batch) : List (Nat × Nat) :=
  let repeats := p.repeats
  (p.keys.filter fun key => !repeats.contains key).filterMap fun (i, h) =>
    (stored.stored.id? h).map fun position => (i, position)

/-- The warnings about repeated hierarchy ids. -/
def repeatWarnings (p : ImportPlan) : List String :=
  p.repeats.filterMap fun (i, h) => (p.groups[i]?).map fun g =>
    rowLabel g.number ++ "duplicate HIERARCHY_ID '" ++ h ++ "' in file, row skipped"

end ImportPlan

/-! ## Nodes -/

/-- A batch being assembled: where the nodes of the groups are, and the warnings so far. -/
structure Assembly where
  batch : Batch
  placed : List (Nat × Nat) := []
  warnings : List String := []
  deriving Repr

namespace Assembly

/-- Registers the keys of a group for a position. -/
def groupKeys (g : RowGroup) (i : Nat) (keys : KeyTable) : KeyTable :=
  (g.xrefs.foldl (fun keys x => keys.addXref x i)
    ((keys.addId g.hierarchyId i).addName g.name i)).addPath g.path i

/-- Adds the node of the group at position `gi`. The keys of a group that is stored already lead to
    the stored node, so that rows below it still find it; those of a repeated group lead nowhere. -/
def addGroup (p : ImportPlan) (repeats : List (Nat × String)) (existing : List (Nat × Nat))
    (a : Assembly) (gi : Nat) (g : RowGroup) : Assembly :=
  if repeats.any (·.1 == gi) then a
  else match existing.lookup gi with
    | some i => { a with batch := a.batch.register (groupKeys g i) }
    | none =>
      let i := a.batch.size
      { batch := (a.batch.push ⟨g.node p.project, .imported, g.path, none, some gi⟩).register
          (groupKeys g i)
        placed := a.placed ++ [(gi, i)]
        warnings := a.warnings ++ g.nodeWarnings }

/-- Adds a placeholder, unless its path leads somewhere or a node can stand for it. -/
def addPlaceholder (p : ImportPlan) (b : Batch) (h : Placeholder) : Batch :=
  if (b.fresh.path? h.path).isSome then b
  else match (b.fresh.id? h.hierarchyId).or (b.storedMatch? h.hierarchyId h.path h.name) with
    | some i => b.register (·.addPath h.path i)
    | none =>
      let i := b.size
      (b.push ⟨h.node p.project, .synthesized, h.path, none, none⟩).register fun keys =>
        (keys.addId h.hierarchyId i).addPath h.path i

/-- Changes the node at a position. -/
def modifyNode (b : Batch) (i : Nat) (f : Node → Node) : Batch :=
  b.modify i fun e => { e with node := f e.node }

/-- Puts a total on the node of its aggregating group and takes the label off the others. -/
def addTotal (p : ImportPlan) (a : Assembly) (t : TotalPlan) : Assembly :=
  match a.placed.lookup t.parent with
  | none =>
    { a with warnings := a.warnings ++ ["formula group '" ++ t.label ++
        "': aggregating node was skipped, total formula not created"] }
  | some i =>
    let b := modifyNode a.batch i (t.attach p.groups)
    let members := t.participants.filterMap fun gi => a.placed.lookup gi
    { a with batch := members.foldl (fun b j => modifyNode b j t.stripLabel) b }

end Assembly

namespace Batch

/-- The positions of the nodes that the import adds. -/
def newPositions (b : Batch) : List Nat :=
  (b.entries.zipIdx.filter (·.1.origin != .stored)).map (·.2)

/-- Resolves the references of the new nodes among all nodes. -/
def resolveReferences (b : Batch) : Batch × List String :=
  let directory := Directory.ofNodes b.nodes
  let resolved := b.entries.map fun e =>
    if e.origin = .stored then (e, []) else
      let r := directory.resolveNode e.node
      ({ e with node := r.value }, r.warnings)
  ({ b with entries := resolved.map (·.1) }, resolved.flatMap (·.2))

end Batch

/-- The batch of a plan over the stored nodes, and what is to be reported of it. -/
def ImportPlan.assemble (p : ImportPlan) (stored : List Node) : Batch × Summary :=
  let start := Batch.ofStored stored
  let repeats := p.repeats
  let existing := p.existing start
  let nodes := p.groups.zipIdx.foldl
    (fun a (g, gi) => Assembly.addGroup p repeats existing a gi g) { batch := start }
  let filled := { nodes with batch := p.placeholders.foldl (Assembly.addPlaceholder p) nodes.batch }
  let totalled := p.totals.foldl (Assembly.addTotal p) filled
  let (batch, referenceWarnings) := totalled.batch.resolveReferences
  (batch,
    { skipped := repeats.length + existing.length
      warnings := p.repeatWarnings ++ totalled.warnings ++ referenceWarnings })

end Rollup

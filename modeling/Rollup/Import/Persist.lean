import Rollup.Import.Parents
import Rollup.Store

/-!
# Storing a batch

All new nodes are created as roots first, and linked to their parents once every storage id is
known. A node whose creation fails is reported, and its children stay roots.
-/

namespace Rollup

/-- A batch being stored. -/
structure Persisting where
  store : Store
  batch : Batch
  created : List Nat := []
  summary : Summary := {}
  deriving Repr

namespace Persisting

/-- Adds an error message. -/
def addError (p : Persisting) (message : String) : Persisting :=
  { p with summary := p.summary.addError message }

/-- Adds a warning. -/
def addWarning (p : Persisting) (message : String) : Persisting :=
  { p with summary := p.summary.addWarning message }

/-- Creates the node at a position as a root. -/
def createOne (g : WriteGuard) (groups : List RowGroup) (p : Persisting) (i : Nat) : Persisting :=
  match p.batch.entries[i]? with
  | none => p
  | some e =>
    let root := e.node.withParent none
    match p.store.guardedCreate g root with
    | .ok (id, store) =>
      { p with
        store := store
        batch := p.batch.modify i fun e => { e with node := { root with id := id } }
        created := p.created ++ [i] }
    | .error cause => p.addError (Batch.label groups e ++ ": create failed: " ++ cause.message)

/-- Links the stored node at a position to its stored parent. -/
def linkOne (g : WriteGuard) (groups : List RowGroup) (p : Persisting) (i : Nat) : Persisting :=
  match p.batch.entries[i]? with
  | none => p
  | some e =>
    match e.parent.bind (p.batch.entries[·]?) with
    | none => p
    | some parent =>
      if parent.node.id = "" then
        p.addWarning (Batch.label groups e ++ ": parent '" ++ parent.node.hierarchyId ++
          "' was not stored, kept as root")
      else
        match p.store.guardedUpdate g (e.node.withParent (some parent.node.id)) with
        | .ok store => { p with store := store }
        | .error cause =>
          p.addError (Batch.label groups e ++ ": linking parent failed: " ++ cause.message)

/-- How many created nodes have an origin. -/
def count (p : Persisting) (o : Origin) : Nat :=
  p.created.countP fun i => ((p.batch.entries[i]?).map (·.origin)) == some o

end Persisting

/-- Stores the new nodes of a batch. -/
def Batch.persist (b : Batch) (g : WriteGuard) (groups : List RowGroup) (s : Store) :
    Store × Summary :=
  let created := b.newPositions.foldl (Persisting.createOne g groups) { store := s, batch := b }
  let linked := created.created.foldl (Persisting.linkOne g groups) created
  (linked.store,
    { linked.summary with
      imported := linked.count .imported
      synthesized := linked.count .synthesized })

end Rollup

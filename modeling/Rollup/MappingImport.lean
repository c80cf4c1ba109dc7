import Rollup.HierarchyRow.Read
import Rollup.MappingList
import Rollup.Store
import Rollup.Summary

/-!
# Importing mapping files

Each row puts one mapping on a node. Only nodes whose mappings change are written.
-/

namespace Rollup.MappingImport

/-- The nodes of a project while rows are put on them: which ones have changed, and what is to be
    reported. -/
structure Progress where
  nodes : List Node
  changed : List Nat := []
  summary : Summary := {}
  deriving Repr

/-- Adds an error message. -/
def Progress.addError (p : Progress) (message : String) : Progress :=
  { p with summary := p.summary.addError message }

/-- Puts the mapping of a row on its node. -/
def applyRow (p : Progress) (row : MappingRow) : Progress :=
  match row.hierarchyId with
  | none => p.addError (rowLabel row.number ++ "HIERARCHY_ID is empty")
  | some h =>
    match p.nodes.findIdx? (·.hierarchyId == h) with
    | none => p.addError (rowLabel row.number ++ "hierarchy '" ++ h ++ "' not found")
    | some i =>
      let held := ((p.nodes[i]?).map (·.mappings)).getD []
      let (mappings, change) := MappingList.put row.mappingIndex row.mapping held
      let nodes := p.nodes.modify i fun n => { n with mappings := mappings }
      match change with
      | .unchanged => { p with nodes := nodes, summary := p.summary.skip 1 }
      | .inserted | .replaced =>
        { nodes := nodes
          changed := if i ∈ p.changed then p.changed else p.changed ++ [i]
          summary := { p.summary with imported := p.summary.imported + 1 } }

/-- Puts a row that may not be readable. -/
def applyOutcome (p : Progress) : Except ImportError MappingRow → Progress
  | .ok row => applyRow p row
  | .error e => p.addError e.message

/-- Writes a node back. -/
def storeNode (g : WriteGuard) (acc : Store × Summary) (n : Node) : Store × Summary :=
  match acc.1.guardedUpdate g n with
  | .ok store => (store, acc.2)
  | .error cause =>
    (acc.1, acc.2.addError (n.hierarchyId ++ ": storing mappings failed: " ++ cause.message))

/-- Imports a table of mappings into a project. -/
def table (g : WriteGuard) (s : Store) (project : String) (t : Table) :
    Except ImportError (Store × Summary) :=
  if s.hasProject project then
    let p := (t.rows.map t.mappingRow).foldl applyOutcome
      { nodes := s.nodesOf project, summary := { errors := t.problems } }
    let changed := (p.nodes.zipIdx.filter fun (_, i) => i ∈ p.changed).map (·.1)
    .ok (changed.foldl (storeNode g) (s, p.summary))
  else .error (.projectNotFound project)

end Rollup.MappingImport

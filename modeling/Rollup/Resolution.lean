import Rollup.Reference
import Rollup.Store

/-!
# Resolving the references of a project

Every node of a project has its references looked up among the nodes of the project. Nodes in
which something is replaced are written back.
-/

namespace Rollup

/-- What resolving did. -/
structure ResolutionReport where
  nodesUpdated : Nat := 0
  referencesResolved : Nat := 0
  warnings : List String := []
  deriving DecidableEq, Repr

namespace Resolution

/-- Resolves one node and writes it back if it changes. -/
def resolveOne (g : WriteGuard) (directory : Directory) (acc : Store × ResolutionReport)
    (n : Node) : Store × ResolutionReport :=
  let r := directory.resolveNode n
  let report := { acc.2 with warnings := acc.2.warnings ++ r.warnings }
  if r.count = 0 then (acc.1, report)
  else match acc.1.guardedUpdate g r.value with
    | .ok store =>
      (store, { report with
        nodesUpdated := report.nodesUpdated + 1
        referencesResolved := report.referencesResolved + r.count })
    | .error cause =>
      (acc.1, { report with warnings := report.warnings ++
          [n.hierarchyId ++ ": update failed: " ++ cause.message] })

/-- Resolves all references of a project. -/
def project (g : WriteGuard) (s : Store) (id : String) :
    Except ImportError (Store × ResolutionReport) :=
  if s.hasProject id then
    let nodes := s.nodesOf id
    .ok (nodes.foldl (resolveOne g (Directory.ofNodes nodes)) (s, {}))
  else .error (.projectNotFound id)

end Resolution

end Rollup

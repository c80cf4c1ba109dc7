import Rollup.Proofs.Import.Cuts
import Rollup.Proofs.Service.Frame

/-!
# The parents of imported nodes

An import proposes parents for the nodes that it adds. They are stored as proposed, except that the
last member of every cycle of the proposals is left without a parent, with one warning each.

Results:

* `Import.warnings_rows`, `warnings_importTable`: the warnings of an import.
* `links_importTable`: the parents that an import stores, and the number of its warnings about
  cycles.
-/

namespace Rollup

/-- An import raises the warnings of its plan, of its batch and of its links. -/
theorem Import.warnings_rows {s : Store} {project : String} (d : Dialect) (w : Window)
    (marks : Bool) (rs : List HierarchyRow) (known : s.hasProject project = true)
    (wf : s.WellFormed) :
    let p := (ImportPlan.ofRows project d w rs).1
    (Import.rows .permissive s project d w marks rs).2.warnings =
      (ImportPlan.ofRows project d w rs).2.warnings ++
        (p.assemble (s.nodesOf project)).2.warnings ++
        ((p.assemble (s.nodesOf project)).1.link d p.groups).2 := by
  intro p
  obtain ⟨added, ids, made, -, -, run⟩ := p.persist_finished s marks known wf.ids
    (fun n hn => wf.named n (Store.mem_nodesOf.mp hn).1) (wf.keys project)
  have eq : (Import.rows .permissive s project d w marks rs).2 =
      (((ImportPlan.ofRows project d w rs).2.merge (p.assemble (s.nodesOf project)).2).addWarnings
        ((p.assemble (s.nodesOf project)).1.link d p.groups).2).merge
          ((p.finished (s.nodesOf p.project) marks).persist .permissive p.groups s).2 := rfl
  rw [eq, run]
  exact List.append_nil _

namespace Service

open Ancestry Import

section Warnings

variable {s t : Store} (wf : s.WellFormed) {project : String} {table : Table}
  {dialect : Option Dialect} {report : ImportReport}
  (done : importTable s project table dialect = .ok (t, report))

include wf done

/-- An import of a table raises the warnings about its labels, of its batch and of its links. -/
theorem warnings_importTable :
    let plan := importPlan s project report.dialect table
    report.summary.warnings = (TotalPlan.plan plan.groups).2 ++
      (plan.assemble (s.nodesOf project)).2.warnings ++
      ((plan.assemble (s.nodesOf project)).1.link report.dialect plan.groups).2 := by
  intro plan
  obtain ⟨known, -, imported, himport, -⟩ := importTable_eq_ok done
  rw [table_eq known, Except.ok.injEq, Prod.mk.injEq] at himport
  rw [← himport.2]
  show ([] ++ _ : List String) = _
  rw [List.nil_append, warnings_rows _ _ _ _ known wf]
  rfl

/-- Only the links of an import raise warnings about cycles. -/
theorem countP_warnings_importTable :
    let plan := importPlan s project report.dialect table
    report.summary.warnings.countP isCycleWarning =
      ((plan.assemble (s.nodesOf project)).1.link report.dialect plan.groups).2.countP
        isCycleWarning := by
  intro plan
  rw [warnings_importTable wf done, List.countP_append, List.countP_append,
    countP_of_quiet (TotalPlan.quiet_plan _), countP_of_quiet (quiet_assemble _ _), Nat.zero_add]

end Warnings

section Added

variable {s : Store} {project : String} {table : Table} {d : Dialect} {added : List Placeholder}
  {ids : List String} {made : List Node}

/-- The parent that is stored for a new node. -/
theorem Added.parentId_made (h : Added s project table d added ids made) {k : Nat} {m : Node}
    (hm : made[k]? = some m) :
    m.parentId = ((importPlan s project d table).links (s.nodesOf project)
      (k + (s.nodesOf project).length)).bind fun q =>
        ((s.nodesOf project ++ made)[q]?).map (·.id) := by
  obtain ⟨e, id, -, -, eq⟩ := h.outcome.made_at hm
  have parent : m.outline.parentId = _ := congrArg Node.parentId eq
  have ids : (s.nodesOf project).map (·.id) ++ ids = (s.nodesOf project ++ made).map (·.id) := by
    rw [List.map_append, h.outcome.map_id]
  refine Eq.trans parent ?_
  show Option.bind _ _ = _
  rw [ids]
  congr 1
  funext q
  exact List.getElem?_map

/-- The parent of a new node after the import. -/
theorem Added.parentId_after (h : Added s project table d added ids made) {k : Nat} {n : Node}
    (here : ((s.nodesOf project ++ made).map
      (afterImport s project made))[k + (s.nodesOf project).length]? = some n) :
    n.parentId = ((importPlan s project d table).links (s.nodesOf project)
      (k + (s.nodesOf project).length)).bind fun q =>
        (((s.nodesOf project ++ made).map (afterImport s project made))[q]?).map (·.id) := by
  rw [List.getElem?_map, List.getElem?_append_right (Nat.le_add_left _ _),
    Nat.add_sub_cancel] at here
  obtain ⟨m, hm, rfl⟩ := Option.map_eq_some_iff.mp here
  have ids : ((s.nodesOf project ++ made).map (afterImport s project made)).map (·.id) =
      (s.nodesOf project ++ made).map (·.id) := by
    rw [List.map_map]
    exact List.map_congr_left fun n _ => congrArg Node.Place.id (place_afterImport n)
  have parent : (afterImport s project made m).parentId = m.parentId :=
    congrArg Node.Place.parentId (place_afterImport m)
  simp only [parent, h.parentId_made hm, ← List.getElem?_map, ids]

end Added

/-- An import stores the parents that are proposed for the new nodes, except that the last member of
    every cycle of the proposals gets none. It raises one warning about a cycle for each of them. -/
theorem links_importTable {s t : Store} (h : Reachable s) {project : String} {table : Table}
    {dialect : Option Dialect} {report : ImportReport}
    (done : importTable s project table dialect = .ok (t, report)) :
    let plan := importPlan s project report.dialect table
    let f := (plan.assemble (s.nodesOf project)).1.proposals report.dialect plan.groups
    (∀ i p, f i = some p → (s.nodesOf project).length ≤ i ∧ i < (t.nodesOf project).length ∧
      p < (t.nodesOf project).length) ∧
    ∃ cs, CyclesOf f cs ∧
      (∀ i n, (s.nodesOf project).length ≤ i → (t.nodesOf project)[i]? = some n →
        n.parentId = if ∃ c ∈ cs, c.max? = some i then none
          else (f i).bind fun p => ((t.nodesOf project)[p]?).map (·.id)) ∧
      report.summary.warnings.countP isCycleWarning = cs.length := by
  intro plan f
  have wf := wellFormed_of_reachable h
  have warnings := countP_warnings_importTable wf done
  obtain ⟨added, ids, made, new, rfl, -⟩ := importTable_outcome wf done
  have after := new.nodesOf_after project
  rw [if_pos rfl] at after
  have proposes : (plan.assemble (s.nodesOf project)).1.Proposes report.dialect plan.groups
      (s.nodesOf project).length made.length := by
    rw [new.outcome.length_made]
    exact ImportPlan.proposes_assemble (wf.keys project) new.outcome.drafted
  have size : (plan.assemble (s.nodesOf project)).1.size =
      (s.nodesOf project).length + made.length := by
    rw [new.outcome.length_made, (plan.agrees_assemble (wf.keys project)).size_eq]
    exact new.outcome.drafted.size_eq
  obtain ⟨cs, all⟩ := proposes.exists_cyclesOf size
  rw [after, List.length_map, List.length_append]
  refine ⟨fun i p link => ?_, cs, all, fun i n old here => ?_, ?_⟩
  · obtain ⟨low, high, inside⟩ := proposes.lt_of_proposals link
    exact ⟨low, high, size ▸ inside⟩
  · obtain ⟨k, rfl⟩ := Nat.exists_eq_add_of_le' old
    have links : plan.links (s.nodesOf project) =
        (plan.assemble (s.nodesOf project)).1.links report.dialect plan.groups :=
      (Batch.links_congr (plan.agrees_assemble (wf.keys project)) _ _).symm
    rw [new.parentId_after here, links, proposes.links_eq, all.closes_iff]
    split_ifs
    · rfl
    · rfl
  · rw [warnings, proposes.countP_link (ImportPlan.unlinked_assemble (wf.keys project)
      new.outcome.drafted), all.countP_closes]
    · rw [proposes.positions]
      exact List.nodup_range'
    · intro i p link
      rw [proposes.positions, List.mem_range'_1]
      exact ⟨(proposes.lt_of_proposals link).1, (proposes.lt_of_proposals link).2.1⟩

/-- A table with two nodes that name each other as parents, and a third below the first. -/
def loop : Table :=
  { headers := ["HIERARCHY_ID", "HIERARCHY_NAME", "PARENT_ID"]
    columns := ["HIERARCHY_ID", "HIERARCHY_NAME", "PARENT_ID"]
    rows := [⟨1, ["A", "Alpha", "B"]⟩, ⟨2, ["B", "Beta", "A"]⟩, ⟨3, ["C", "Gamma", "A"]⟩]
    problems := [] }

theorem links_importTable_loop : ∃ s t report,
    Reachable s ∧ importTable s "P" loop (some .standard) = .ok (t, report) ∧
      (t.nodesOf "P").map (fun n => (n.hierarchyId, n.parentId.isSome)) =
        [("A", true), ("B", false), ("C", true)] ∧
      ∃ cs, CyclesOf (((importPlan s "P" report.dialect loop).assemble (s.nodesOf "P")).1.proposals
        report.dialect (importPlan s "P" report.dialect loop).groups) cs ∧ cs.length = 1 := by
  have created : run {} (.initProject "P" "") = .ok { projects := [⟨"P", "P"⟩] } := by rfl
  have shown : ((importTable { projects := [⟨"P", "P"⟩] } "P" loop (some .standard)).toOption.map
      fun x => ((x.1.nodesOf "P").map fun n => (n.hierarchyId, n.parentId.isSome),
        x.2.summary.warnings.countP isCycleWarning)) =
      some ([("A", true), ("B", false), ("C", true)], 1) := by
    decide +kernel
  obtain ⟨⟨t, report⟩, done, shown⟩ := Option.map_eq_some_iff.mp shown
  obtain ⟨nodes, warnings⟩ := Prod.mk.inj shown
  have reachable : Reachable { projects := [⟨"P", "P"⟩] } := .call _ .empty created
  obtain ⟨-, cs, all, -, count⟩ := links_importTable reachable (ok_of_toOption done)
  exact ⟨_, t, report, reachable, ok_of_toOption done, nodes, cs, all, count.symm.trans warnings⟩

end Service

end Rollup

import Mathlib.Data.List.Basic
import Rollup.Proofs.Import.NodeTotals
import Rollup.Proofs.Service.Links
import Rollup.Proofs.Service.Reimport

/-!
# The totals of imported nodes

The totals that an import stores, in terms of the rows of the file. A node gets the total of the last
label that is one of its group, and the children are all other groups that carry the label. Totals
are planned before it is known which groups are skipped, so groups with the same hierarchy id take
part in a total as if they were different nodes.

Results:

* `total?_importTable_iff`: the total of a new node.
* `totals_importTable`: the totals and the warnings of an import that skips no group.
* `children_importTable`: when the node and the children of a total are different nodes.
-/

namespace Rollup.Service

open Import TotalPlan

section Added

variable {s : Store} {project : String} {table : Table} {d : Dialect} {added : List Placeholder}
  {ids : List String} {made : List Node}

/-- Of a new node, resolving references changes the formula only. -/
theorem Added.afterImport_made (h : Added s project table d added ids made) {m : Node}
    (hm : m ∈ made) : ∃ f, afterImport s project made m = { m with formula := f } := by
  have known : m.ChildrenIn
      ((Directory.ofNodes (s.nodesOf project ++ made)).map (·.hierarchyId)) := by
    have closed := h.outcome.closed m hm
    rw [ImportPlan.nodeIds_eq h.outcome.drafted, ← h.outcome.map_hierarchyId,
      ← List.map_append] at closed
    rw [Directory.ofNodes, List.map_map]
    exact closed
  have inProject : m.projectId = project := h.outcome.inProject hm
  unfold afterImport
  split_ifs
  · rw [Resolution.rewriteIn, if_pos inProject]
    rcases Resolution.resolvedAs_rewrite (h.settled hm) known with same | resolved
    · exact ⟨m.formula, same⟩
    · exact ⟨_, resolved.rest⟩
  · exact ⟨m.formula, rfl⟩

end Added

section Imports

variable {s t : Store} (wf : s.WellFormed) {project : String} {table : Table}
  {dialect : Option Dialect} {report : ImportReport}
  (done : importTable s project table dialect = .ok (t, report))

include wf done

section Node

variable {k : Nat} {n : Node}
  (here : (t.nodesOf project)[k + (s.nodesOf project).length]? = some n)

include here

/-- A new node is stored as it was made, but for its formula. -/
theorem exists_made : ∃ added ids made m f,
    Added s project table report.dialect added ids made ∧ made[k]? = some m ∧
      n = { m with formula := f } := by
  obtain ⟨added, ids, made, new, rfl, -⟩ := importTable_outcome wf done
  have after := new.nodesOf_after project
  rw [if_pos rfl] at after
  rw [after, List.getElem?_map, List.getElem?_append_right (Nat.le_add_left _ _),
    Nat.add_sub_cancel] at here
  obtain ⟨m, hm, rfl⟩ := Option.map_eq_some_iff.mp here
  obtain ⟨f, eq⟩ := new.afterImport_made (List.mem_of_getElem? hm)
  exact ⟨added, ids, made, m, f, new, hm, eq⟩

/-- The node of a new group has the hierarchy id and the name of the group. -/
theorem identity_importTable {q : RowGroup × Nat}
    (hq : ((importPlan s project report.dialect table).newGroups
      (Batch.ofStored (s.nodesOf project)))[k]? = some q) :
    n.hierarchyId = q.1.hierarchyId ∧ n.name = q.1.name := by
  obtain ⟨added, ids, made, m, f, new, hm, rfl⟩ := exists_made wf done here
  obtain ⟨e, id, he, -, eq⟩ := new.outcome.made_at hm
  rw [ImportPlan.drafts, List.getElem?_append_left (by
      rw [List.length_map]
      exact (List.getElem?_eq_some_iff.mp hq).1), List.getElem?_map, hq, Option.map_some,
    Option.some.injEq] at he
  subst he
  exact ⟨(congrArg Node.hierarchyId eq :), (congrArg Node.name eq :)⟩

/-- A new node has the total of the last label of its group, and no other. -/
theorem total?_importTable_iff {total : Total} :
    n.total? = some total ↔
      ∃ q, ((importPlan s project report.dialect table).newGroups
          (Batch.ofStored (s.nodesOf project)))[k]? = some q ∧
        IsLastTotal (importPlan s project report.dialect table).groups q.2 q.1.name total := by
  obtain ⟨added, ids, made, m, f, new, hm, rfl⟩ := exists_made wf done here
  exact new.outcome.total?_made_iff (wf.keys project) rfl hm

end Node

/-- Where no group is skipped, all are new. -/
theorem newGroups_of_whole (whole : report.summary.skipped = 0) :
    (importPlan s project report.dialect table).newGroups (Batch.ofStored (s.nodesOf project)) =
      (importPlan s project report.dialect table).groups.zipIdx := by
  obtain ⟨known, -, imported, himport, -⟩ := importTable_eq_ok done
  obtain ⟨made, summary, run, -, count, -⟩ := table_ok wf known report.dialect
    ((Settings.importOptions s (some project)).window report.dialect) table
  rw [himport, Except.ok.injEq, Prod.mk.injEq] at run
  obtain ⟨added, ids, made', -, -, new, -⟩ := importTable_outcome wf done
  rw [← run.2, whole, Nat.add_zero, new] at count
  refine List.filter_sublist.eq_of_length ?_
  rw [List.length_zipIdx]
  exact count

/-- A standard file adds nodes for its groups only. -/
theorem length_of_standard (standard : report.dialect = .standard) :
    (t.nodesOf project).length = (s.nodesOf project).length +
      ((importPlan s project report.dialect table).newGroups
        (Batch.ofStored (s.nodesOf project))).length := by
  obtain ⟨added, ids, made, new, rfl, -⟩ := importTable_outcome wf done
  have after := new.nodesOf_after project
  rw [if_pos rfl] at after
  have unfilled : added = [] := by
    have sublist := new.outcome.sublist
    rw [standard] at sublist
    exact List.sublist_nil.mp sublist
  rw [after, List.length_map, List.length_append, new.outcome.length_made, ImportPlan.drafts,
    unfilled, List.map_nil, List.append_nil, List.length_map]

/-- Where a standard file is imported whole, its groups are the new nodes, with the totals of their
    last labels. -/
theorem exists_group_of_whole (standard : report.dialect = .standard)
    (whole : report.summary.skipped = 0) {k : Nat} {n : Node}
    (here : (t.nodesOf project)[k + (s.nodesOf project).length]? = some n) :
    ∃ g, (importPlan s project report.dialect table).groups[k]? = some g ∧
      n.hierarchyId = g.hierarchyId ∧ n.name = g.name ∧ ∀ total, n.total? = some total ↔
        IsLastTotal (importPlan s project report.dialect table).groups k g.name total := by
  have new := newGroups_of_whole wf done whole
  have bound := (List.getElem?_eq_some_iff.mp here).1
  rw [length_of_standard wf done standard, new, List.length_zipIdx] at bound
  obtain ⟨g, hg⟩ : ∃ g, (importPlan s project report.dialect table).groups[k]? = some g :=
    ⟨_, List.getElem?_eq_getElem (by omega)⟩
  have hq : ((importPlan s project report.dialect table).newGroups
      (Batch.ofStored (s.nodesOf project)))[k]? = some (g, k) := by
    rw [new, List.getElem?_zipIdx, hg, Option.map_some, Nat.zero_add]
  obtain ⟨id, name⟩ := identity_importTable wf done here hq
  refine ⟨g, hg, id, name, fun total => ?_⟩
  rw [total?_importTable_iff wf done here, hq]
  constructor
  · rintro ⟨q, same, last⟩
    cases same
    exact last
  · exact fun last => ⟨_, rfl, last⟩

end Imports

/-! ## Labels and totals -/

/-- Importing a standard file into an empty project without skipping a group. The groups become the
    nodes. Each has the total of the last label that is one of its group, over the other groups that
    carry the label, and no other; so a total is lost exactly if its group has a later one. Ambiguous
    labels are warned about. -/
theorem totals_importTable {s t : Store} (h : Reachable s) {project : String} {table : Table}
    {dialect : Option Dialect} {report : ImportReport}
    (done : importTable s project table dialect = .ok (t, report))
    (empty : s.nodesOf project = []) (standard : report.dialect = .standard)
    (whole : report.summary.skipped = 0) :
    let groups := (importPlan s project .standard table).groups
    (t.nodesOf project).map (fun n => (n.hierarchyId, n.name)) =
        groups.map (fun g => (g.hierarchyId, g.name)) ∧
      (∀ i n, (t.nodesOf project)[i]? = some n → ∀ total,
        n.total? = some total ↔ IsLastTotal groups i n.name total) ∧
      ∀ label, Ambiguous groups label → ∃ detail,
        "formula group '" ++ label ++ "': " ++ detail ∈ report.summary.warnings := by
  intro groups
  have wf := wellFormed_of_reachable h
  have length := length_of_standard wf done standard
  rw [newGroups_of_whole wf done whole, List.length_zipIdx, empty, standard, List.length_nil,
    Nat.zero_add] at length
  have group : ∀ {i : Nat} {n : Node}, (t.nodesOf project)[i]? = some n → ∃ g, groups[i]? = some g ∧
      n.hierarchyId = g.hierarchyId ∧ n.name = g.name ∧
        ∀ total, n.total? = some total ↔ IsLastTotal groups i g.name total := by
    intro i n here
    have := exists_group_of_whole (k := i) wf done standard whole (by rw [empty]; exact here)
    rwa [standard] at this
  refine ⟨List.ext_getElem (by simp [groups, length]) fun i bound _ => ?_, ?_, ?_⟩
  · rw [List.length_map] at bound
    obtain ⟨g, hg, id, name, -⟩ := group (List.getElem?_eq_getElem bound)
    rw [List.getElem_map, List.getElem_map, (List.getElem?_eq_some_iff.mp hg).2, id, name]
  · intro i n here
    obtain ⟨g, -, -, name, totals⟩ := group here
    rwa [name]
  · intro label ambiguous
    obtain ⟨detail, warned⟩ := exists_warning_of_ambiguous ambiguous
    refine ⟨detail, ?_⟩
    rw [warnings_importTable wf done, standard, List.append_assoc]
    exact List.mem_append_left _ warned

/-- A node that states the aggregations of two labels, and a node below each label. -/
def twoLabels : Table :=
  { headers := ["HIERARCHY_ID", "HIERARCHY_NAME", "FORMULA_GROUP_NAME", "AGGREGATION"]
    columns := ["HIERARCHY_ID", "HIERARCHY_NAME", "FORMULA_GROUP_NAME", "AGGREGATION"]
    rows := [⟨1, ["TOTAL", "Total", "T1", "SUM"]⟩, ⟨2, ["TOTAL", "Total", "T2", "AVERAGE"]⟩,
      ⟨3, ["A", "Alpha", "T1", ""]⟩, ⟨4, ["B", "Beta", "T2", ""]⟩]
    problems := [] }

/-- A store with an empty project. -/
def emptyProject : Store :=
  { projects := [⟨"P", "P"⟩] }

theorem reachable_emptyProject : Reachable emptyProject :=
  .call _ .empty (show run {} (.initProject "P" "") = .ok emptyProject from rfl)

theorem imports_twoLabels : ∃ t report,
    importTable emptyProject "P" twoLabels (some .standard) = .ok (t, report) ∧
    report.dialect = .standard ∧ report.summary.skipped = 0 ∧ report.summary.warnings = [] ∧
    (t.nodesOf "P").map (fun n => (n.hierarchyId, n.total?)) =
      [("TOTAL", some ⟨"T2", "Total", .average, [⟨some "B", "Beta"⟩]⟩), ("A", none),
        ("B", none)] := by
  have ran : (importTable emptyProject "P" twoLabels (some .standard)).toOption.map
      (fun r => (r.2.dialect, r.2.summary.skipped, r.2.summary.warnings)) =
      some (.standard, 0, []) := by
    decide +kernel
  have nodes : (importTable emptyProject "P" twoLabels (some .standard)).toOption.map
      (fun r => (r.1.nodesOf "P").map fun n => (n.hierarchyId, n.total?)) =
      some [("TOTAL", some ⟨"T2", "Total", .average, [⟨some "B", "Beta"⟩]⟩), ("A", none),
        ("B", none)] := by
    decide +kernel
  obtain ⟨⟨t, report⟩, done, ran⟩ := Option.map_eq_some_iff.mp ran
  obtain ⟨standard, ran⟩ := Prod.mk.inj ran
  obtain ⟨whole, warnings⟩ := Prod.mk.inj ran
  rw [done, Option.map_some, Option.some.injEq] at nodes
  exact ⟨t, report, ok_of_toOption done, standard, whole, warnings, nodes⟩

theorem totals_importTable_twoLabels : ∃ t report, Reachable emptyProject ∧
    importTable emptyProject "P" twoLabels (some .standard) = .ok (t, report) ∧
    emptyProject.nodesOf "P" = [] ∧ report.dialect = .standard ∧ report.summary.skipped = 0 ∧
    ∃ n, (t.nodesOf "P")[0]? = some n ∧
      IsLastTotal (importPlan emptyProject "P" .standard twoLabels).groups 0 n.name
        ⟨"T2", "Total", .average, [⟨some "B", "Beta"⟩]⟩ := by
  obtain ⟨t, report, done, standard, whole, -, nodes⟩ := imports_twoLabels
  obtain ⟨n, rest, list, shown, -⟩ := List.map_eq_cons_iff.mp nodes
  have here : (t.nodesOf "P")[0]? = some n := by
    rw [list]
    rfl
  have empty : emptyProject.nodesOf "P" = [] := rfl
  obtain ⟨-, totals, -⟩ := totals_importTable reachable_emptyProject done empty standard whole
  exact ⟨t, report, reachable_emptyProject, done, empty, standard, whole, n, here,
    (totals 0 n here _).mp (Prod.mk.inj shown).2⟩

/-- Both labels are totals of the node, but the first one is neither stored nor warned about. -/
theorem total?_twoLabels : ∃ t report, Reachable emptyProject ∧
    importTable emptyProject "P" twoLabels (some .standard) = .ok (t, report) ∧
    emptyProject.nodesOf "P" = [] ∧ report.dialect = .standard ∧ report.summary.skipped = 0 ∧
    IsTotal (importPlan emptyProject "P" .standard twoLabels).groups "T1" 0 .sum ∧
    childrenOf (importPlan emptyProject "P" .standard twoLabels).groups "T1" 0 =
      [⟨some "A", "Alpha"⟩] ∧
    (t.nodesOf "P").map (fun n => (n.hierarchyId, n.total?)) =
      [("TOTAL", some ⟨"T2", "Total", .average, [⟨some "B", "Beta"⟩]⟩), ("A", none),
        ("B", none)] ∧
    report.summary.warnings = [] := by
  obtain ⟨t, report, done, standard, whole, warnings, nodes⟩ := imports_twoLabels
  exact ⟨t, report, reachable_emptyProject, done, rfl, standard, whole, by decide +kernel,
    by decide +kernel, nodes, warnings⟩

/-- The node of a total and its children are, in some order, the groups that carry the label. So they
    are different nodes exactly if these groups have different hierarchy ids. -/
theorem children_importTable {s t : Store} (h : Reachable s) {project : String} {table : Table}
    {dialect : Option Dialect} {report : ImportReport}
    (done : importTable s project table dialect = .ok (t, report)) :
    let groups := (importPlan s project report.dialect table).groups
    ∀ i n total, (s.nodesOf project).length ≤ i → (t.nodesOf project)[i]? = some n →
      n.total? = some total →
        (some n.hierarchyId :: total.children.map (·.hierarchyId)).Perm
            ((carriers groups total.groupName).map fun q => some q.1.hierarchyId) ∧
          ((total.children.map (·.hierarchyId)).Nodup ∧
              some n.hierarchyId ∉ total.children.map (·.hierarchyId) ↔
            ((carriers groups total.groupName).map (·.1.hierarchyId)).Nodup) := by
  intro groups i n total old here has
  have wf := wellFormed_of_reachable h
  obtain ⟨k, rfl⟩ := Nat.exists_eq_add_of_le' old
  obtain ⟨q, hq, last⟩ := (total?_importTable_iff wf done here).mp has
  obtain ⟨hg, -⟩ := (ImportPlan.mem_newGroups_iff _ _).mp (List.mem_of_getElem? hq)
  have perm := last.isTotal.perm_carriers hg
  rw [← last.children, ← (identity_importTable wf done here hq).1] at perm
  refine ⟨perm, ?_⟩
  have distinct : ((carriers groups total.groupName).map fun q => some q.1.hierarchyId).Nodup ↔
      ((carriers groups total.groupName).map (·.1.hierarchyId)).Nodup := by
    rw [← List.nodup_map_iff (Option.some_injective String), List.map_map]
    rfl
  rw [← distinct, ← perm.nodup_iff, List.nodup_cons, and_comm]

theorem children_importTable_twoLabels : ∃ t report, Reachable emptyProject ∧
    importTable emptyProject "P" twoLabels (some .standard) = .ok (t, report) ∧
    ∃ n total, (t.nodesOf "P")[0]? = some n ∧ n.total? = some total ∧
      (total.children.map (·.hierarchyId)).Nodup ∧
        some n.hierarchyId ∉ total.children.map (·.hierarchyId) := by
  obtain ⟨t, report, done, standard, -, -, nodes⟩ := imports_twoLabels
  obtain ⟨n, rest, list, shown, -⟩ := List.map_eq_cons_iff.mp nodes
  have here : (t.nodesOf "P")[0]? = some n := by
    rw [list]
    rfl
  obtain ⟨-, distinct⟩ := children_importTable reachable_emptyProject done 0 n _ (Nat.zero_le _)
    here (Prod.mk.inj shown).2
  rw [standard] at distinct
  exact ⟨t, report, reachable_emptyProject, done, n, _, here, (Prod.mk.inj shown).2,
    distinct.mpr (by decide +kernel)⟩

/-- Three rows under one label, of which the first two have names that make the same hierarchy id. -/
def sameIdLabels : Table :=
  { headers := ["HIERARCHY_NAME", "FORMULA_GROUP_NAME", "AGGREGATION"]
    columns := ["HIERARCHY_NAME", "FORMULA_GROUP_NAME", "AGGREGATION"]
    rows := [⟨1, ["Net Sales", "T1", "SUM"]⟩, ⟨2, ["net-sales", "T1", ""]⟩,
      ⟨3, ["Online", "T1", ""]⟩]
    problems := [] }

/-- The node of the first row adds up itself. -/
theorem children_sameIdLabels : ∃ t report, Reachable emptyProject ∧
    importTable emptyProject "P" sameIdLabels (some .standard) = .ok (t, report) ∧
    (t.nodesOf "P").map (fun n => (n.hierarchyId, n.total?)) =
      [("NET_SALES", some ⟨"T1", "Net Sales", .sum,
        [⟨some "NET_SALES", "net-sales"⟩, ⟨some "ONLINE", "Online"⟩]⟩), ("ONLINE", none)] := by
  have shown : (importTable emptyProject "P" sameIdLabels (some .standard)).toOption.map
      (fun r => (r.1.nodesOf "P").map (fun n => (n.hierarchyId, n.total?))) =
      some [("NET_SALES", some ⟨"T1", "Net Sales", .sum,
        [⟨some "NET_SALES", "net-sales"⟩, ⟨some "ONLINE", "Online"⟩]⟩), ("ONLINE", none)] := by
    decide +kernel
  obtain ⟨⟨t, report⟩, done, shown⟩ := Option.map_eq_some_iff.mp shown
  exact ⟨t, report, reachable_emptyProject, ok_of_toOption done, shown⟩

end Rollup.Service

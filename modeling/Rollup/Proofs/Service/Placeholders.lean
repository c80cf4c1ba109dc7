import Mathlib.Data.List.Basic
import Mathlib.Tactic.SplitIfs
import Rollup.Proofs.Export.Sheet
import Rollup.Proofs.Service.Frame

/-!
# Placeholders in reachable stores

Two signs tell a placeholder: how its hierarchy id starts, and an entry of its metadata. Filling in
missing ancestors puts both on a node, and nothing else writes the entry. But rows can bring nodes
with such a hierarchy id, by a column of theirs or by the slug of a name, and those count as
placeholders too: they have no row in an export.

Results:

* `get?_of_fromRows`, `isMarked_of_filledIn`: who writes the entry.
* `Sheet.sublist_recordsFrom`: the main rows of an export.
* `Added.split`: the nodes that an import adds, by their marks.
* `placeholders_of_reachable`: what all this comes to in reachable stores.
-/

namespace Rollup

/-! ## The two signs -/

namespace Node

/-- The hierarchy id starts as those of placeholders do. -/
def HasPlaceholderId (n : Node) : Prop :=
  placeholderMark.toList <+: n.hierarchyId.toList

/-- The metadata mark a placeholder. -/
def IsMarked (n : Node) : Prop :=
  Dict.get? placeholderKey n.metadata = some (.bool true)

/-- The node has the stamp of a group of rows. -/
def FromRows (n : Node) : Prop :=
  ∃ (d : Dialect) (w : Window) (t : Table), ∃ g ∈ (d.group w (Import.readRows t d)).1,
    n.stamp = (g.node "").stamp

/-- The node has the stamp of an ancestor that was filled in. -/
def FilledIn (n : Node) : Prop :=
  ∃ (w : Window) (t : Table), ∃ h ∈ RowGroup.Legacy.missingAncestors
    (RowGroup.Legacy.group w (Import.readRows t .legacy)).1, n.stamp = (h.node "").stamp

theorem isMarked_congr {m n : Node} (same : m.stamp = n.stamp) : m.IsMarked ↔ n.IsMarked := by
  have metadata : m.metadata = n.metadata := congrArg Stamp.metadata same
  rw [IsMarked, IsMarked, metadata]

theorem fromRows_or_filledIn {n : Node} (h : n.stamp.FromFile) : n.FromRows ∨ n.FilledIn := by
  generalize eq : n.stamp = st at h
  cases h with
  | group mem => exact Or.inl ⟨_, _, _, _, mem, eq⟩
  | placeholder mem => exact Or.inr ⟨_, _, _, mem, eq⟩

/-- Rows do not mark nodes. -/
theorem get?_of_fromRows {n : Node} (h : n.FromRows) : Dict.get? placeholderKey n.metadata = none := by
  obtain ⟨d, w, t, g, mem, stamp⟩ := h
  have metadata : n.metadata = (g.node "").metadata := congrArg Stamp.metadata stamp
  rw [metadata, Dict.get?_eq_none_iff]
  intro key
  obtain ⟨q, hq, same⟩ := List.mem_map.mp key
  exact (Dialect.unmarked_group mem "" q hq).1 same

theorem not_isMarked_of_fromRows {n : Node} (h : n.FromRows) : ¬ n.IsMarked := by
  intro marked
  rw [IsMarked, get?_of_fromRows h] at marked
  cases marked

theorem isMarked_of_filledIn {n : Node} (h : n.FilledIn) : n.IsMarked := by
  obtain ⟨w, t, p, -, stamp⟩ := h
  have metadata : n.metadata = [(placeholderKey, .bool true)] := congrArg Stamp.metadata stamp
  rw [IsMarked, metadata]
  rfl

theorem hasPlaceholderId_of_filledIn {n : Node} (h : n.FilledIn) : n.HasPlaceholderId := by
  obtain ⟨w, t, p, mem, stamp⟩ := h
  obtain ⟨g, -, a, -, rfl, -⟩ := RowGroup.Legacy.mem_missingAncestors mem
  have hierarchyId : n.hierarchyId = placeholderMark ++ Text.slugPath a :=
    congrArg Stamp.hierarchyId stamp
  rw [HasPlaceholderId, hierarchyId, String.toList_append]
  exact List.prefix_append _ _

/-- Of the two signs, the hierarchy id alone decides. -/
theorem isPlaceholder_iff {n : Node} (h : n.stamp.FromFile) :
    n.isPlaceholder = true ↔ n.HasPlaceholderId := by
  rw [isPlaceholder, Bool.or_eq_true, List.isPrefixOf_iff_prefix]
  refine ⟨fun signs => signs.elim (fun start => start) fun marked => ?_, Or.inl⟩
  rcases fromRows_or_filledIn h with rows | filled
  · rw [get?_of_fromRows rows] at marked
    cases marked
  · exact hasPlaceholderId_of_filledIn filled

theorem isMarked_iff {n : Node} (h : n.stamp.FromFile) :
    (n.IsMarked ↔ n.FilledIn) ∧ (¬ n.IsMarked ↔ n.FromRows) := by
  rcases fromRows_or_filledIn h with rows | filled
  · have unmarked := not_isMarked_of_fromRows rows
    exact ⟨⟨fun marked => absurd marked unmarked, isMarked_of_filledIn⟩,
      ⟨fun _ => rows, fun _ => unmarked⟩⟩
  · have marked := isMarked_of_filledIn filled
    exact ⟨⟨fun _ => filled, fun _ => marked⟩,
      ⟨fun unmarked => absurd marked unmarked, not_isMarked_of_fromRows⟩⟩

end Node

/-! ## The rows of an export -/

namespace Export.Sheet

/-- The main row of a node at a position. -/
def mainRecord (s : Sheet) (q : Nat × Node) : List String :=
  s.layout.fill (s.mainFormulaCells q.2) (s.layout.fill (s.sharedCells q.1 q.2) s.layout.blank)

/-- Every node has its main row. -/
theorem sublist_recordsFrom (s : Sheet) (todo : List (Nat × Node)) :
    ∀ next : Int, (todo.map s.mainRecord).Sublist (s.recordsFrom next todo) := by
  induction todo with
  | nil => exact fun _ => List.nil_sublist _
  | cons q todo ih =>
    intro next
    rw [List.map_cons, recordsFrom, nodeRecords, List.cons_append]
    exact ((ih _).trans (List.sublist_append_right _ _)).cons_cons _

/-- Every row is that of a node; its further rows count their keys on from some number. -/
theorem mem_recordsFrom (s : Sheet) {todo : List (Nat × Node)} {r : List String} :
    ∀ {next : Int}, r ∈ s.recordsFrom next todo →
      ∃ q ∈ todo, ∃ first, r ∈ s.nodeRecords (ExportKeys.further s.mainKeys first) q.1 q.2 := by
  induction todo with
  | nil =>
    intro next mem
    cases mem
  | cons q todo ih =>
    intro next mem
    rw [recordsFrom, List.mem_append] at mem
    rcases mem with own | other
    · exact ⟨q, by simp, next, own⟩
    · obtain ⟨q', hq', first, mem⟩ := ih other
      exact ⟨q', by simp [hq'], first, mem⟩

end Export.Sheet

/-! ## Imports -/

namespace Service

theorem filledIn_of_placeholder {s : Store} {project : String} {table : Table} {d : Dialect}
    {p : Placeholder} {m : Node} (mem : p ∈ (importPlan s project d table).placeholders)
    (stamp : m.stamp = (p.node "").stamp) : m.FilledIn := by
  cases d with
  | standard => cases mem
  | legacy => exact ⟨_, _, p, mem, stamp⟩

section Imports

variable {s : Store} {project : String} {table : Table} {d : Dialect} {added : List Placeholder}
  {ids : List String} {made : List Node} (h : Added s project table d added ids made)

include h

/-- The new nodes of groups are not marked; those that are filled in come after them and are. -/
theorem Added.split : ∃ described filled, made = described ++ filled ∧
    described.length = ((importPlan s project d table).newGroups
      (Batch.ofStored (s.nodesOf project))).length ∧
    filled.length = added.length ∧
    (∀ m ∈ described, ¬ m.IsMarked) ∧ ∀ m ∈ filled, m.IsMarked := by
  obtain ⟨described, filled, eq, groups, placeholders⟩ := List.map_eq_append_iff.mp h.map_stamp
  refine ⟨described, filled, eq, ?_, ?_, ?_, ?_⟩
  · simpa using congrArg List.length groups
  · simpa using congrArg List.length placeholders
  · intro m hm
    have mem := List.mem_map_of_mem (f := Node.stamp) hm
    rw [groups] at mem
    obtain ⟨q, hq, stamp⟩ := List.mem_map.mp mem
    exact Node.not_isMarked_of_fromRows
      ⟨_, _, _, q.1, ImportPlan.mem_groups_of_newGroups _ _ hq, stamp.symm⟩
  · intro m hm
    have mem := List.mem_map_of_mem (f := Node.stamp) hm
    rw [placeholders] at mem
    obtain ⟨p, hp, stamp⟩ := List.mem_map.mp mem
    exact Node.isMarked_of_filledIn
      (filledIn_of_placeholder (h.outcome.sublist.subset hp) stamp.symm)

end Imports

theorem stamp_afterImport {s : Store} {project : String} {made : List Node} {n : Node}
    (settled : n.Settled) : (afterImport s project made n).stamp = n.stamp :=
  (revision_afterImport n).stamp_eq settled

/-- An import leaves the signs on the nodes that are there, marks the ancestors that it fills in and
    does not mark the nodes of rows. -/
theorem marks_importTable {s t : Store} (h : Reachable s) {project : String} {table : Table}
    {dialect : Option Dialect} {report : ImportReport}
    (done : importTable s project table dialect = .ok (t, report)) :
    ∃ old described filled, t.nodesOf project = old ++ described ++ filled ∧
      old.map (·.stamp) = (s.nodesOf project).map (·.stamp) ∧
      described.length = report.summary.imported ∧
      filled.length = report.summary.synthesized ∧
      (∀ n ∈ described, ¬ n.IsMarked) ∧ ∀ n ∈ filled, n.IsMarked := by
  obtain ⟨added, ids, made, new, rfl, imported, synthesized, -⟩ :=
    importTable_outcome (wellFormed_of_reachable h) done
  obtain ⟨described, filled, eq, described_len, filled_len, unmarked, marked⟩ := new.split
  have stamp : ∀ n ∈ made, (afterImport s project made n).stamp = n.stamp :=
    fun n hn => stamp_afterImport (new.settled hn)
  have after := new.nodesOf_after project
  rw [if_pos rfl] at after
  have parts : (s.nodesOf project ++ made).map (afterImport s project made) =
      (s.nodesOf project).map (afterImport s project made) ++
        described.map (afterImport s project made) ++ filled.map (afterImport s project made) := by
    rw [List.append_assoc, ← List.map_append, ← eq, List.map_append]
  refine ⟨_, _, _, after.trans parts, ?_, ?_, ?_, ?_, ?_⟩
  · rw [List.map_map]
    exact List.map_congr_left fun n hn =>
      stamp_afterImport (provenance_of_reachable h n (Store.mem_nodesOf.mp hn).1).1
  · rw [List.length_map, described_len, imported]
  · rw [List.length_map, filled_len, synthesized]
  · intro m hm
    obtain ⟨n, hn, rfl⟩ := List.mem_map.mp hm
    rw [Node.isMarked_congr (stamp n (eq ▸ List.mem_append_left _ hn))]
    exact unmarked n hn
  · intro m hm
    obtain ⟨n, hn, rfl⟩ := List.mem_map.mp hm
    rw [Node.isMarked_congr (stamp n (eq ▸ List.mem_append_right _ hn))]
    exact marked n hn

/-! ## Reachable stores -/

/-- In a reachable store the nodes whose hierarchy ids start like those of placeholders count as
    placeholders. They include all nodes that imports filled in, which are the marked ones; all
    others come from rows. Imports fill in as many nodes as they report, and exports have a main row
    for each node that does not count as a placeholder and rows of no other nodes. -/
theorem placeholders_of_reachable (s : Store) (h : Reachable s) :
    (∀ n ∈ s.nodes, (n.isPlaceholder = true ↔ n.HasPlaceholderId) ∧ (n.IsMarked ↔ n.FilledIn) ∧
      (¬ n.IsMarked ↔ n.FromRows) ∧ (n.IsMarked → n.HasPlaceholderId)) ∧
    (∀ project table dialect t report, importTable s project table dialect = .ok (t, report) →
      ∃ old described filled, t.nodesOf project = old ++ described ++ filled ∧
        old.map (·.stamp) = (s.nodesOf project).map (·.stamp) ∧
        described.length = report.summary.imported ∧
        filled.length = report.summary.synthesized ∧
        (∀ n ∈ described, ¬ n.IsMarked) ∧ ∀ n ∈ filled, n.IsMarked) ∧
    ∀ project, s.hasProject project = true →
      let sheet :=
        Export.Sheet.ofNodes (s.nodesOf project) (Settings.exportOptions s (some project))
      ∃ (rows : List (List String)) (written : List (Nat × Node)),
        exportHierarchy s project = .ok (sheet.layout.write rows) ∧
        (written.map (·.1)).Nodup ∧
        (∀ i n, (i, n) ∈ written ↔ (s.nodesOf project)[i]? = some n ∧ ¬ n.HasPlaceholderId) ∧
        (written.map sheet.mainRecord).Sublist rows ∧
        ∀ r ∈ rows, ∃ q ∈ written, ∃ first,
          r ∈ sheet.nodeRecords (ExportKeys.further sheet.mainKeys first) q.1 q.2 := by
  have made := provenance_of_reachable h
  refine ⟨fun n hn => ?_, fun project table dialect t report => marks_importTable h, ?_⟩
  · obtain ⟨marked, unmarked⟩ := Node.isMarked_iff (made n hn).2
    exact ⟨Node.isPlaceholder_iff (made n hn).2, marked, unmarked,
      fun mark => Node.hasPlaceholderId_of_filledIn (marked.mp mark)⟩
  · intro project known sheet
    refine ⟨sheet.records (Settings.exportOptions s (some project)), sheet.written, ?_,
      Export.nodup_written _ _, fun i n => ?_, sheet.sublist_recordsFrom _ _,
      fun r hr => sheet.mem_recordsFrom hr⟩
    · rw [exportHierarchy, requireProject, if_pos known]
      rfl
    · rw [Export.mem_written_iff, and_congr_right_iff]
      intro here
      have mem := (Store.mem_nodesOf.mp (List.mem_of_getElem? here)).1
      rw [← Node.isPlaceholder_iff (made n mem).2, Bool.not_eq_true]

theorem placeholders_of_reachable_deepRow : ∃ s, Reachable s ∧
    (s.nodesOf "P").map (fun n => (n.hierarchyId, n.isPlaceholder)) =
      [("SALES__NORTH__SHOP", false), ("SYNTH_SALES", true), ("SYNTH_SALES__NORTH", true)] ∧
    ∀ n ∈ s.nodes, n.isPlaceholder = true ↔ n.HasPlaceholderId := by
  have shown : ((([.initProject "P" ""] : List Call).foldlM run {}).toOption.bind fun s =>
      (run s (.importTable "P" deepRow (some .legacy))).toOption.map fun t =>
        ((), (t.nodesOf "P").map fun n => (n.hierarchyId, n.isPlaceholder))) = some
      ((), [("SALES__NORTH__SHOP", false), ("SYNTH_SALES", true), ("SYNTH_SALES__NORTH", true)]) := by
    decide +kernel
  obtain ⟨s, t, reachable, done, -, nodes⟩ := exists_reachable_run shown
  have reachable : Reachable t := .call _ reachable done
  exact ⟨t, reachable, nodes, fun n hn => ((placeholders_of_reachable t reachable).1 n hn).1⟩

/-- A table with a name whose slug starts as the hierarchy ids of placeholders do. -/
def synthPop : Table :=
  { headers := ["HIERARCHY_NAME", "PARENT_ID"]
    columns := ["HIERARCHY_NAME", "PARENT_ID"]
    rows := [⟨1, ["Synth Pop", ""]⟩]
    problems := [] }

/-- The node of a row that counts as a placeholder without being marked, and an export that has no
    row for it. -/
theorem isPlaceholder_synthPop : ∃ s n, Reachable s ∧ s.nodesOf "P" = [n] ∧ n.name = "Synth Pop" ∧
    ¬ n.IsMarked ∧ n.isPlaceholder = true ∧
    exportHierarchy s "P" = .ok
      ((Export.Sheet.ofNodes [n] (Settings.exportOptions s (some "P"))).layout.write []) := by
  have shown : ((([.initProject "P" ""] : List Call).foldlM run {}).toOption.bind fun s =>
      (run s (.importTable "P" synthPop (some .standard))).toOption.map fun t =>
        ((), t.hasProject "P",
          (t.nodesOf "P").map fun n => (n.name, n.metadata.isEmpty, n.isPlaceholder))) = some
      ((), true, [("Synth Pop", true, true)]) := by
    decide +kernel
  obtain ⟨s, t, reachable, done, -, shown⟩ := exists_reachable_run shown
  obtain ⟨known, nodes⟩ := Prod.mk.inj shown
  obtain ⟨n, nodes, shown⟩ := List.map_eq_singleton_iff.mp nodes
  obtain ⟨name, empty, counts⟩ : n.name = "Synth Pop" ∧ n.metadata.isEmpty = true ∧
      n.isPlaceholder = true := by simpa using shown
  refine ⟨t, n, .call _ reachable done, nodes, name, ?_, counts, ?_⟩
  · rw [Node.IsMarked, List.isEmpty_iff.mp empty]
    simp [Dict.get?]
  · rw [exportHierarchy, requireProject, if_pos known, nodes]
    have none : (Export.Sheet.ofNodes [n] (Settings.exportOptions t (some "P"))).written = [] := by
      refine List.eq_nil_iff_forall_not_mem.mpr fun q hq => ?_
      obtain ⟨here, described⟩ := Export.mem_written_iff.mp hq
      obtain rfl : n = q.2 := (List.mem_singleton.mp (List.mem_of_getElem? here)).symm
      rw [counts] at described
      cases described
    have records : (Export.Sheet.ofNodes [n] (Settings.exportOptions t (some "P"))).records
        (Settings.exportOptions t (some "P")) = [] := congrArg _ none
    exact congrArg (fun rows => Except.ok (Layout.write _ rows)) records

end Service

end Rollup

import Mathlib.Data.List.Basic
import Mathlib.Tactic.SplitIfs
import Rollup.Proofs.Service.Placeholders
import Rollup.Proofs.Text.Slug

/-!
# Nodes without a hierarchy id

The groups of a standard file have hierarchy ids, and rows from which none can be derived are
reported. The groups of a legacy file can lack one: where no row of a group has a hierarchy id and
no step of its path a letter or a number, the node is stored under the empty text.

Results:

* `Dialect.hierarchyId_group`: the groups that lack a hierarchy id.
* `empty_importTable`: when a project has an empty hierarchy id after an import.
* `stored_importTable`: every group of an import has its node.
* `identity_of_reachable`: what all this comes to in reachable stores.
-/

namespace Rollup

/-- No step of the path has a letter or a number. -/
def Wordless (path : List String) : Prop :=
  ∀ step ∈ path, ∀ c ∈ step.toList, Text.isLetterOrNumber c = false

/-! ## Groups -/

theorem Import.filled_readRows (t : Table) (d : Dialect) :
    ∀ row ∈ readRows t d, ∀ k, row.hierarchyId = some k → k ≠ "" := by
  intro row hrow
  obtain ⟨_, -, read⟩ := read_of_mem_readRows hrow
  exact Table.filled_hierarchyRow read

theorem RowGroup.Legacy.hierarchyId_eq_empty_iff {w : Window} {t : Table} {g : RowGroup}
    (mem : g ∈ (group w (Import.readRows t .legacy)).1) :
    g.hierarchyId = "" ↔ (∀ row ∈ g.rows, row.hierarchyId = none) ∧ Wordless g.path := by
  obtain ⟨-, members, -, hid⟩ := mem_group mem
  rw [hid, ← List.findSome?_eq_none_iff]
  cases found : g.rows.findSome? (·.hierarchyId) with
  | none =>
    rw [Option.getD_none, Text.slugPath_eq_empty_iff, and_iff_right rfl]
    rfl
  | some k =>
    obtain ⟨row, hrow, hk⟩ := List.exists_of_findSome?_eq_some found
    have filled := Import.filled_readRows t .legacy row (members row hrow).1 k hk
    simp [filled]

/-- The groups that lack a hierarchy id. -/
theorem Dialect.hierarchyId_group {d : Dialect} {w : Window} {t : Table} {g : RowGroup}
    (mem : g ∈ (d.group w (Import.readRows t d)).1) :
    g.hierarchyId = "" ↔
      d = .legacy ∧ (∀ row ∈ g.rows, row.hierarchyId = none) ∧ Wordless g.path := by
  cases d with
  | standard =>
    obtain ⟨b, -, hg⟩ := RowGroup.Standard.mem_group mem
    simp [(RowGroup.Standard.ofBucket_eq_ok hg).2]
  | legacy => simp [RowGroup.Legacy.hierarchyId_eq_empty_iff mem]

theorem Node.hierarchyId_of_filledIn {n : Node} (h : n.FilledIn) : n.hierarchyId ≠ "" := by
  intro empty
  have start := hasPlaceholderId_of_filledIn h
  rw [HasPlaceholderId, empty] at start
  exact absurd (List.prefix_nil.mp start) (by decide)

/-- A node without a hierarchy id has a path that gives none. -/
theorem Node.wordless_of_fromFile {n : Node} (h : n.stamp.FromFile) (empty : n.hierarchyId = "") :
    n.levelPath ≠ [] ∧ Wordless n.levelPath := by
  rcases fromRows_or_filledIn h with ⟨d, w, t, g, mem, stamp⟩ | filled
  · have hierarchyId : n.hierarchyId = g.hierarchyId := congrArg Stamp.hierarchyId stamp
    have levelPath : n.levelPath = g.path := congrArg Stamp.levelPath stamp
    obtain ⟨rfl, -, wordless⟩ := (Dialect.hierarchyId_group mem).mp (hierarchyId.symm.trans empty)
    rw [levelPath]
    exact ⟨(RowGroup.Legacy.mem_group mem).1, wordless⟩
  · exact absurd empty (hierarchyId_of_filledIn filled)

/-! ## Imports -/

namespace Service

section Imports

variable {s : Store} {project : String} {table : Table} {d : Dialect} {added : List Placeholder}
  {ids : List String} {made : List Node} (h : Added s project table d added ids made)

include h

/-- The hierarchy ids of the stored and the new nodes of a project. -/
theorem Added.map_hierarchyId : (s.nodesOf project ++ made).map (·.hierarchyId) =
    (importPlan s project d table).nodeIds (s.nodesOf project) := by
  rw [ImportPlan.nodeIds_eq h.outcome.drafted, ← h.outcome.map_hierarchyId, List.map_append]

/-- The hierarchy ids of a project after an import. -/
theorem Added.hierarchyIds_after :
    (({ s with nodes := (s.nodes ++ made).map (afterImport s project made) } : Store).nodesOf
      project).map (·.hierarchyId) =
        (importPlan s project d table).nodeIds (s.nodesOf project) := by
  rw [← h.map_hierarchyId, h.nodesOf_after, if_pos rfl, List.map_map]
  exact List.map_congr_left fun n _ => congrArg Node.Place.hierarchyId (place_afterImport n)

/-- An import stores an empty hierarchy id if a group has it. -/
theorem Added.empty_mem_iff (keys : ((s.nodesOf project).map (·.hierarchyId)).Nodup) :
    "" ∈ (importPlan s project d table).nodeIds (s.nodesOf project) ↔
      "" ∈ (s.nodesOf project).map (·.hierarchyId) ∨
        ∃ g ∈ (importPlan s project d table).groups, g.hierarchyId = "" := by
  constructor
  · intro mem
    rw [ImportPlan.nodeIds_eq h.outcome.drafted, ← h.outcome.map_hierarchyId, List.mem_append] at mem
    refine mem.imp_right fun mem => ?_
    obtain ⟨m, hm, empty⟩ := List.mem_map.mp mem
    rcases h.stamp_made hm with ⟨g, hg, stamp⟩ | ⟨p, hp, stamp⟩
    · exact ⟨g, hg, (congrArg Node.Stamp.hierarchyId stamp).symm.trans empty⟩
    · exact absurd empty (Node.hierarchyId_of_filledIn (filledIn_of_placeholder hp stamp))
  · rintro (mem | ⟨g, hg, empty⟩)
    · rw [ImportPlan.nodeIds_eq h.outcome.drafted]
      exact List.mem_append_left _ mem
    · exact empty ▸ ImportPlan.group_mem_nodeIds _ keys hg

end Imports

/-- When a project has a node without a hierarchy id after an import. -/
theorem empty_importTable {s t : Store} (wf : s.WellFormed) {project : String} {table : Table}
    {dialect : Option Dialect} {report : ImportReport}
    (done : importTable s project table dialect = .ok (t, report)) :
    (∃ n ∈ t.nodesOf project, n.hierarchyId = "") ↔
      (∃ n ∈ s.nodesOf project, n.hierarchyId = "") ∨
        report.dialect = .legacy ∧ ∃ g ∈ (report.dialect.group
          ((Settings.importOptions s (some project)).window report.dialect)
          (Import.readRows table report.dialect)).1,
          (∀ row ∈ g.rows, row.hierarchyId = none) ∧ Wordless g.path := by
  obtain ⟨added, ids, made, new, rfl, -⟩ := importTable_outcome wf done
  have empty := new.empty_mem_iff (wf.keys project)
  rw [← new.hierarchyIds_after, List.mem_map, List.mem_map] at empty
  rw [empty]
  refine or_congr_right ⟨?_, ?_⟩
  · rintro ⟨g, hg, none⟩
    obtain ⟨legacy, rest⟩ := (Dialect.hierarchyId_group hg).mp none
    exact ⟨legacy, g, hg, rest⟩
  · rintro ⟨legacy, g, hg, rest⟩
    exact ⟨g, hg, (Dialect.hierarchyId_group hg).mpr ⟨legacy, rest⟩⟩

/-- Every group of an import has its node. -/
theorem stored_importTable {s t : Store} (wf : s.WellFormed) {project : String} {table : Table}
    {dialect : Option Dialect} {report : ImportReport}
    (done : importTable s project table dialect = .ok (t, report)) {g : RowGroup}
    (mem : g ∈ (report.dialect.group
      ((Settings.importOptions s (some project)).window report.dialect)
      (Import.readRows table report.dialect)).1) :
    ∃ n ∈ t.nodesOf project, n.hierarchyId = g.hierarchyId := by
  obtain ⟨added, ids, made, new, rfl, -⟩ := importTable_outcome wf done
  have stored := (importPlan s project report.dialect table).group_mem_nodeIds
    (wf.keys project) mem
  rw [← new.hierarchyIds_after] at stored
  exact List.mem_map.mp stored

/-! ## Reachable stores -/

/-- In a reachable store only nodes whose paths have no letters and numbers lack a hierarchy id. They
    come from legacy files in which a group with such a path has no row with an id. Of a standard
    file every row is stored under a hierarchy id that is not empty, or it is reported. -/
theorem identity_of_reachable (s : Store) (h : Reachable s) :
    (∀ n ∈ s.nodes, n.hierarchyId = "" → n.levelPath ≠ [] ∧ Wordless n.levelPath) ∧
    ∀ project table dialect t report, importTable s project table dialect = .ok (t, report) →
      let w := (Settings.importOptions s (some project)).window report.dialect
      let rows := Import.readRows table report.dialect
      ((∃ n ∈ t.nodesOf project, n.hierarchyId = "") ↔
        (∃ n ∈ s.nodesOf project, n.hierarchyId = "") ∨
          report.dialect = .legacy ∧ ∃ g ∈ (report.dialect.group w rows).1,
            (∀ row ∈ g.rows, row.hierarchyId = none) ∧ Wordless g.path) ∧
      (report.dialect = .standard → ∀ row ∈ rows,
        (∃ g ∈ (report.dialect.group w rows).1, row ∈ g.rows ∧ g.hierarchyId ≠ "" ∧
          ∃ n ∈ t.nodesOf project, n.hierarchyId = g.hierarchyId) ∨
        (row.hierarchyId = none ∧ RowGroup.Standard.rowName w row = none ∧
          RowGroup.Standard.nameless row.number ∈ report.summary.errors) ∨
        ∃ name, row.hierarchyId = none ∧ RowGroup.Standard.rowName w row = some name ∧
          Text.slug name = "" ∧ ∃ leader ∈ rows, leader.hierarchyId = none ∧
            RowGroup.Standard.rowName w leader = some name ∧
            RowGroup.Standard.underivable leader.number name ∈ report.summary.errors) := by
  have wf := wellFormed_of_reachable h
  refine ⟨fun n hn => Node.wordless_of_fromFile (provenance_of_reachable h n hn).2, ?_⟩
  intro project table dialect t report done w rows
  refine ⟨empty_importTable wf done, fun standard row hrow => ?_⟩
  have reported : ∀ e ∈ (report.dialect.group w rows).2, e ∈ report.summary.errors := by
    obtain ⟨_, _, _, -, -, -, -, errors⟩ := importTable_outcome wf done
    intro e he
    rw [errors]
    exact List.mem_append_right _ he
  have grouped : report.dialect.group w rows = RowGroup.Standard.group w rows := by
    rw [standard]
    rfl
  have outcome := RowGroup.Standard.mem_group_or_error (w := w)
    (Import.filled_readRows table report.dialect) hrow
  rw [← grouped] at outcome
  rcases outcome with ⟨g, hg, mem⟩ | ⟨idLess, unnamed, he⟩ |
    ⟨name, idLess, named, slugless, leader, hleader, idLess', named', he⟩
  · refine Or.inl ⟨g, hg, mem, fun empty => ?_, stored_importTable wf done hg⟩
    have legacy := ((Dialect.hierarchyId_group hg).mp empty).1
    rw [standard] at legacy
    cases legacy
  · exact Or.inr (Or.inl ⟨idLess, unnamed, reported _ he⟩)
  · exact Or.inr (Or.inr ⟨name, idLess, named, slugless, leader, hleader, idLess', named',
      reported _ he⟩)

/-- A legacy table whose only path has neither letters nor numbers. -/
def starRow : Table :=
  { headers := ["XREF_HIERARCHY_KEY", "LEVEL_1", "LEVEL_2"]
    columns := ["XREF_HIERARCHY_KEY", "LEVEL_1", "LEVEL_2"]
    rows := [⟨1, ["1", "Plan", "***"]⟩]
    problems := [] }

theorem identity_of_reachable_starRow : ∃ s, Reachable s ∧
    (s.nodesOf "P").map (fun n => (n.hierarchyId, n.levelPath)) = [("", ["***"])] ∧
    ∀ n ∈ s.nodes, n.hierarchyId = "" → n.levelPath ≠ [] ∧ Wordless n.levelPath := by
  have shown : ((([.initProject "P" ""] : List Call).foldlM run {}).toOption.bind fun s =>
      (run s (.importTable "P" starRow (some .legacy))).toOption.map fun t =>
        ((), (t.nodesOf "P").map fun n => (n.hierarchyId, n.levelPath))) = some
      ((), [("", ["***"])]) := by
    decide +kernel
  obtain ⟨s, t, reachable, done, -, nodes⟩ := exists_reachable_run shown
  have reachable : Reachable t := .call _ reachable done
  exact ⟨t, reachable, nodes, (identity_of_reachable t reachable).1⟩

/-- An import that stores a node without a hierarchy id and reports no error. -/
theorem hierarchyId_starRow : ∃ s t report, Reachable s ∧
    importTable s "P" starRow (some .legacy) = .ok (t, report) ∧ report.summary.errors = [] ∧
    (t.nodesOf "P").map (·.hierarchyId) = [""] := by
  have created : run {} (.initProject "P" "") = .ok { projects := [⟨"P", "P"⟩] } := rfl
  have shown : (importTable { projects := [⟨"P", "P"⟩] } "P" starRow (some .legacy)).toOption.map
      (fun r => (r.2.summary.errors, (r.1.nodesOf "P").map (·.hierarchyId))) = some ([], [""]) := by
    decide +kernel
  obtain ⟨⟨t, report⟩, done, shown⟩ := Option.map_eq_some_iff.mp shown
  obtain ⟨errors, nodes⟩ := Prod.mk.inj shown
  exact ⟨_, t, report, .call _ .empty created, ok_of_toOption done, errors, nodes⟩

end Service

end Rollup

import Mathlib.Data.List.Basic
import Mathlib.Data.List.Nodup
import Rollup.Proofs.Import.Gaps
import Rollup.Proofs.Service.Placeholders

/-!
# Nodes with the same path

In a legacy file without hierarchy ids a row is known by its path alone. Importing such files one
after the other gives one node for each path, with one exception: where a file needs an ancestor
that no row describes, and a later file describes it, the placeholder stays, and a second node with
its path comes after it. The other way round the stored node stands for the placeholder.

Results:

* `Effect.stamps`: calls that import no hierarchy file leave the paths of a project alone.
* `Grows.pathwise`, `Grows.nodup_iff`: what an import does to the paths of a project.
* `levelPaths_of_history`: which nodes have the same path after a sequence of imports.
-/

namespace Rollup

/-! ## Stamps with paths -/

namespace Node.Stamp

/-- The metadata mark a placeholder. -/
def IsMarked (st : Stamp) : Prop :=
  Dict.get? placeholderKey st.metadata = some (.bool true)

/-- What holds of the nodes of a project, in their order, while rows are known by their paths. -/
structure Pathwise (stamps : List Stamp) : Prop where
  nonempty : ∀ st ∈ stamps, st.levelPath ≠ []
  slugged : ∀ st ∈ stamps, ¬ st.IsMarked → st.hierarchyId = Text.slugPath st.levelPath
  repeated : stamps.Pairwise fun a b => a.levelPath = b.levelPath → a.IsMarked ∧ ¬ b.IsMarked

/-- What an import of rows that are known by their paths adds: nodes that rows describe, and nodes
    that are filled in. -/
structure Grows (old described filled : List Stamp) : Prop where
  nonempty : ∀ st ∈ described ++ filled, st.levelPath ≠ []
  unmarked : ∀ st ∈ described, ¬ st.IsMarked
  marked : ∀ st ∈ filled, st.IsMarked
  slugged : ∀ st ∈ described, st.hierarchyId = Text.slugPath st.levelPath
  nodup : ((described ++ filled).map (·.levelPath)).Nodup
  fresh : ∀ st ∈ described, st.hierarchyId ∉ old.map (·.hierarchyId)
  apart : ∀ st ∈ filled, st.levelPath ∉ old.map (·.levelPath)

section Grows

variable {old described filled : List Stamp} (before : Pathwise old)
  (h : Grows old described filled)

include before h

/-- A new node with the path of an old one is described by rows, and the old one is filled in. -/
theorem Grows.same_path {a b : Stamp} (ha : a ∈ old) (hb : b ∈ described ++ filled)
    (same : a.levelPath = b.levelPath) : a.IsMarked ∧ b ∈ described := by
  rcases List.mem_append.mp hb with hb | hb
  · refine ⟨?_, hb⟩
    by_contra unmarked
    -- both have the slug of their path as hierarchy id
    have ids : a.hierarchyId = b.hierarchyId := by
      rw [before.slugged a ha unmarked, h.slugged b hb, same]
    exact h.fresh b hb (ids ▸ List.mem_map_of_mem ha)
  · exact absurd (same ▸ List.mem_map_of_mem ha) (h.apart b hb)

theorem Grows.pathwise : Pathwise (old ++ (described ++ filled)) where
  nonempty st hst := (List.mem_append.mp hst).elim (before.nonempty st) (h.nonempty st)
  slugged st hst unmarked := by
    rcases List.mem_append.mp hst with hst | hst
    · exact before.slugged st hst unmarked
    · rcases List.mem_append.mp hst with hst | hst
      · exact h.slugged st hst
      · exact absurd (h.marked st hst) unmarked
  repeated := by
    refine List.pairwise_append.mpr ⟨before.repeated, ?_, ?_⟩
    · exact (List.pairwise_map.mp h.nodup).imp fun ne same => absurd same ne
    · intro a ha b hb same
      obtain ⟨marked, described⟩ := h.same_path before ha hb same
      exact ⟨marked, h.unmarked b described⟩

/-- Paths stay distinct unless rows describe what was filled in before. -/
theorem Grows.nodup_iff :
    ((old ++ (described ++ filled)).map (·.levelPath)).Nodup ↔
      (old.map (·.levelPath)).Nodup ∧
        ∀ a ∈ old, a.IsMarked → a.levelPath ∉ described.map (·.levelPath) := by
  rw [List.map_append, List.nodup_append]
  constructor
  · rintro ⟨distinct, -, disjoint⟩
    refine ⟨distinct, fun a ha _ mem => ?_⟩
    refine disjoint _ (List.mem_map_of_mem ha) _ ?_ rfl
    rw [List.map_append]
    exact List.mem_append_left _ mem
  · rintro ⟨distinct, undescribed⟩
    refine ⟨distinct, h.nodup, ?_⟩
    rintro path hpath _ hpath' rfl
    obtain ⟨a, ha, rfl⟩ := List.mem_map.mp hpath
    obtain ⟨b, hb, same⟩ := List.mem_map.mp hpath'
    obtain ⟨marked, described⟩ := h.same_path before ha hb same.symm
    exact undescribed a ha marked (same ▸ List.mem_map_of_mem described)

end Grows

end Node.Stamp

/-- No row has a hierarchy id if the table is read as a legacy one. -/
def Table.Unidentified (t : Table) : Prop :=
  ∀ row ∈ Import.readRows t .legacy, row.hierarchyId = none

/-- Rows without hierarchy ids are known by their paths. -/
theorem RowGroup.Legacy.hierarchyId_of_unidentified {w : Window} {t : Table} (h : t.Unidentified)
    {g : RowGroup} (mem : g ∈ (group w (Import.readRows t .legacy)).1) :
    g.hierarchyId = Text.slugPath g.path := by
  obtain ⟨-, members, -, hid⟩ := mem_group mem
  have none : g.rows.findSome? (·.hierarchyId) = none :=
    List.findSome?_eq_none_iff.mpr fun row hrow => h row (members row hrow).1
  rw [hid, none, Option.getD_none]

/-! ## Calls -/

namespace Service

/-- A call that imports no hierarchy file into a project keeps the stamps of its nodes. -/
theorem Effect.stamps {s t : Store} {c : Call} (h : Reachable s) (e : Effect s c t)
    {project : String} (other : ∀ table dialect, c ≠ .importTable project table dialect) :
    (t.nodesOf project).map (·.stamp) = (s.nodesOf project).map (·.stamp) := by
  have wf := wellFormed_of_reachable h
  have settled : ∀ n ∈ s.nodesOf project, n.Settled :=
    fun n hn => (provenance_of_reachable h n (Store.mem_nodesOf.mp hn).1).1
  cases e with
  | found => rfl
  | created => rfl
  | configured => rfl
  | @imported project' table dialect d added ids made new =>
    have elsewhere : (Call.importTable project' table dialect).project? ≠ some project := by
      intro same
      cases same
      exact other table dialect rfl
    rw [((Effect.imported new).others wf elsewhere).2]
  | mapped =>
    rw [MappingImport.nodesOf_replacing wf.ids, List.map_map]
    exact List.map_congr_left fun n hn =>
      (Node.revision_revised wf.ids _ _ (Store.mem_nodesOf.mp hn).1).stamp_eq (settled n hn)
  | resolved =>
    rw [resolvedIn, Store.nodesOf_map rfl fun n _ => congrArg Node.Place.projectId
      (Resolution.place_rewriteIn _ n _), List.map_map]
    exact List.map_congr_left fun n hn =>
      (Node.revision_rewriteIn _ _ n).stamp_eq (settled n hn)

section Imports

variable {s : Store} {project : String} {table : Table} {added : List Placeholder}
  {ids : List String} {made : List Node}

/-- The stamps of a project after an import. -/
theorem Added.stamps_after {d : Dialect} (new : Added s project table d added ids made)
    (h : Reachable s) :
    (({ s with nodes := (s.nodes ++ made).map (afterImport s project made) } : Store).nodesOf
        project).map (·.stamp) =
      (s.nodesOf project).map (·.stamp) ++
        (((importPlan s project d table).newGroups (Batch.ofStored (s.nodesOf project))).map
          (fun q => (q.1.node "").stamp) ++ added.map fun h => (h.node "").stamp) := by
  rw [new.nodesOf_after, if_pos rfl, List.map_map, ← new.map_stamp, ← List.map_append]
  refine List.map_congr_left fun n hn => stamp_afterImport ?_
  rcases List.mem_append.mp hn with hn | hn
  · exact (provenance_of_reachable h n (Store.mem_nodesOf.mp hn).1).1
  · exact new.settled hn

/-- What a legacy file without hierarchy ids adds to a project. -/
theorem Added.grows (new : Added s project table .legacy added ids made)
    (paths : table.Unidentified) (before : Node.Stamp.Pathwise ((s.nodesOf project).map (·.stamp))) :
    Node.Stamp.Grows ((s.nodesOf project).map (·.stamp))
      (((importPlan s project .legacy table).newGroups (Batch.ofStored (s.nodesOf project))).map
        fun q => (q.1.node "").stamp)
      (added.map fun h => (h.node "").stamp) := by
  have grouped : ∀ q ∈ (importPlan s project .legacy table).newGroups
      (Batch.ofStored (s.nodesOf project)), q.1 ∈ (importPlan s project .legacy table).groups :=
    fun q hq => ImportPlan.mem_groups_of_newGroups _ _ hq
  constructor
  case nonempty =>
    intro st hst
    rcases List.mem_append.mp hst with hst | hst
    · obtain ⟨q, hq, rfl⟩ := List.mem_map.mp hst
      exact (RowGroup.Legacy.mem_group (grouped q hq)).1
    · obtain ⟨h, hh, rfl⟩ := List.mem_map.mp hst
      obtain ⟨g, -, a, ha, rfl, -⟩ :=
        RowGroup.Legacy.mem_missingAncestors (new.outcome.sublist.subset hh)
      exact (LevelPath.mem_ancestors.mp ha).1
  case unmarked =>
    intro st hst
    obtain ⟨q, hq, rfl⟩ := List.mem_map.mp hst
    have rows : (q.1.node "").FromRows := ⟨.legacy, _, _, q.1, grouped q hq, rfl⟩
    exact Node.not_isMarked_of_fromRows rows
  case marked =>
    intro st hst
    obtain ⟨h, -, rfl⟩ := List.mem_map.mp hst
    rfl
  case slugged =>
    intro st hst
    obtain ⟨q, hq, rfl⟩ := List.mem_map.mp hst
    exact RowGroup.Legacy.hierarchyId_of_unidentified paths (grouped q hq)
  case nodup =>
    rw [List.map_append, List.map_map, List.map_map]
    exact new.outcome.nodup_paths rfl
  case fresh =>
    intro st hst mem
    obtain ⟨q, hq, rfl⟩ := List.mem_map.mp hst
    rw [List.map_map] at mem
    exact ImportPlan.unstored_newGroups _ hq mem
  case apart =>
    intro st hst mem
    obtain ⟨h, hh, rfl⟩ := List.mem_map.mp hst
    rw [List.map_map] at mem
    obtain ⟨n, hn, same⟩ := List.mem_map.mp mem
    exact new.outcome.path_added hh n hn (before.nonempty _ (List.mem_map_of_mem hn)) same

end Imports

/-! ## Sequences of imports -/

/-- The store after calls that import into a project only legacy files without hierarchy ids. -/
inductive PathHistory (project : String) : Store → Prop where
  | empty : PathHistory project {}
  | imported {s t : Store} {table : Table} {dialect : Option Dialect} {report : ImportReport}
      (before : PathHistory project s)
      (done : importTable s project table dialect = .ok (t, report))
      (legacy : report.dialect = .legacy) (paths : table.Unidentified) : PathHistory project t
  | other {s t : Store} {c : Call} (before : PathHistory project s) (done : run s c = .ok t)
      (apart : ∀ table dialect, c ≠ .importTable project table dialect) : PathHistory project t

section History

variable {project : String} {s : Store}

theorem reachable_of_history (h : PathHistory project s) : Reachable s := by
  induction h with
  | empty => exact .empty
  | @imported s t table dialect report _ done _ _ ih =>
    exact .call (.importTable project table dialect) ih (congrArg (Except.map Prod.fst) done)
  | other _ done _ ih => exact .call _ ih done

theorem pathwise_of_history (h : PathHistory project s) :
    Node.Stamp.Pathwise ((s.nodesOf project).map (·.stamp)) := by
  induction h with
  | empty => exact ⟨by simp [Store.nodesOf], by simp [Store.nodesOf], List.Pairwise.nil⟩
  | imported before done legacy paths ih =>
    have reachable := reachable_of_history before
    obtain ⟨added, ids, made, new, rfl, -⟩ :=
      importTable_outcome (wellFormed_of_reachable reachable) done
    rw [legacy] at new
    rw [new.stamps_after reachable]
    exact (new.grows paths ih).pathwise ih
  | other before done apart ih =>
    have reachable := reachable_of_history before
    rw [(effect_of_run (wellFormed_of_reachable reachable) done).stamps reachable apart]
    exact ih

end History

/-- After imports of legacy files without hierarchy ids, two nodes of the project have the same path
    only if the first was filled in and the second comes from rows. Another such file keeps paths
    distinct exactly if none of its new groups has the path of a node that was filled in. -/
theorem levelPaths_of_history (project : String) (s : Store) (h : PathHistory project s) :
    ((s.nodesOf project).Pairwise fun m n =>
      m.levelPath = n.levelPath → m.IsMarked ∧ ¬ n.IsMarked) ∧
    ∀ table dialect t report, importTable s project table dialect = .ok (t, report) →
      report.dialect = .legacy → table.Unidentified →
      (((t.nodesOf project).map (·.levelPath)).Nodup ↔
        ((s.nodesOf project).map (·.levelPath)).Nodup ∧
          ∀ n ∈ s.nodesOf project, n.IsMarked →
            ∀ q ∈ (importPlan s project .legacy table).newGroups (Batch.ofStored (s.nodesOf project)),
              q.1.path ≠ n.levelPath) := by
  have pathwise := pathwise_of_history h
  refine ⟨List.pairwise_map.mp pathwise.repeated, ?_⟩
  intro table dialect t report done legacy paths
  have reachable := reachable_of_history h
  obtain ⟨added, ids, made, new, rfl, -⟩ :=
    importTable_outcome (wellFormed_of_reachable reachable) done
  rw [legacy] at new
  have grown := (new.grows paths pathwise).nodup_iff pathwise
  rw [← new.stamps_after reachable, List.map_map, List.map_map] at grown
  refine grown.trans (and_congr_right fun _ => ?_)
  constructor
  · intro undescribed n hn marked q hq same
    refine undescribed n.stamp (List.mem_map_of_mem hn) marked ?_
    rw [List.map_map]
    exact List.mem_map.mpr ⟨q, hq, same⟩
  · intro undescribed st hst marked mem
    obtain ⟨n, hn, rfl⟩ := List.mem_map.mp hst
    rw [List.map_map] at mem
    obtain ⟨q, hq, same⟩ := List.mem_map.mp mem
    exact undescribed n hn marked q hq same

/-- A legacy table that describes a node above those of `deepRow`. -/
def salesRow : Table :=
  { headers := ["LEVEL_2", "LEVEL_3", "LEVEL_4"]
    columns := ["LEVEL_2", "LEVEL_3", "LEVEL_4"]
    rows := [⟨1, ["Sales", "", ""]⟩]
    problems := [] }

/-- The row for the path of a placeholder is stored beside it. -/
theorem imports_deepRow_salesRow : ∃ s t first second,
    importTable { projects := [⟨"P", "P"⟩] } "P" deepRow (some .legacy) = .ok (s, first) ∧
    importTable s "P" salesRow (some .legacy) = .ok (t, second) ∧
    (t.nodesOf "P").map (fun n => (n.hierarchyId, n.levelPath)) =
      [("SALES__NORTH__SHOP", ["Sales", "North", "Shop"]), ("SYNTH_SALES", ["Sales"]),
        ("SYNTH_SALES__NORTH", ["Sales", "North"]), ("SALES", ["Sales"])] := by
  have shown : ((importTable { projects := [⟨"P", "P"⟩] } "P" deepRow (some .legacy)).toOption.bind
      fun r => (importTable r.1 "P" salesRow (some .legacy)).toOption.map fun r' =>
        (r'.1.nodesOf "P").map fun n => (n.hierarchyId, n.levelPath)) = some
      [("SALES__NORTH__SHOP", ["Sales", "North", "Shop"]), ("SYNTH_SALES", ["Sales"]),
        ("SYNTH_SALES__NORTH", ["Sales", "North"]), ("SALES", ["Sales"])] := by
    decide +kernel
  obtain ⟨⟨s, first⟩, before, shown⟩ := Option.bind_eq_some_iff.mp shown
  obtain ⟨⟨t, second⟩, after, nodes⟩ := Option.map_eq_some_iff.mp shown
  exact ⟨s, t, first, second, ok_of_toOption before, ok_of_toOption after, nodes⟩

theorem levelPaths_of_history_salesRow : ∃ s t report, PathHistory "P" s ∧
    importTable s "P" salesRow (some .legacy) = .ok (t, report) ∧
    ((t.nodesOf "P").Pairwise fun m n => m.levelPath = n.levelPath → m.IsMarked ∧ ¬ n.IsMarked) ∧
    (((t.nodesOf "P").map (·.levelPath)).Nodup ↔
      ((s.nodesOf "P").map (·.levelPath)).Nodup ∧ ∀ n ∈ s.nodesOf "P", n.IsMarked →
        ∀ q ∈ (importPlan s "P" .legacy salesRow).newGroups (Batch.ofStored (s.nodesOf "P")),
          q.1.path ≠ n.levelPath) := by
  have created : run {} (.initProject "P" "") = .ok { projects := [⟨"P", "P"⟩] } := rfl
  have paths : deepRow.Unidentified ∧ salesRow.Unidentified := by
    rw [Table.Unidentified, Table.Unidentified]
    decide +kernel
  have legacy : ∀ {s t : Store} {table : Table} {report : ImportReport},
      importTable s "P" table (some .legacy) = .ok (t, report) → report.dialect = .legacy :=
    fun done => (Option.some.inj (importTable_eq_ok done).2.1).symm
  obtain ⟨s, t, first, second, before, after, -⟩ := imports_deepRow_salesRow
  have history : PathHistory "P" s :=
    .imported (.other .empty created (by simp)) before (legacy before) paths.1
  have history' : PathHistory "P" t := .imported history after (legacy after) paths.2
  exact ⟨s, t, second, history, after, (levelPaths_of_history "P" t history').1,
    (levelPaths_of_history "P" s history).2 salesRow _ t second after (legacy after) paths.2⟩

/-- Two legacy files without hierarchy ids and without keys of parents after which a placeholder and
    a node from rows have the same path. -/
theorem not_nodup_levelPath_salesRow :
    (∀ table ∈ [deepRow, salesRow], ∀ row ∈ Import.readRows table .legacy,
      row.hierarchyId = none ∧ row.parentXrefKey = none) ∧
    ∃ s t first second,
      importTable { projects := [⟨"P", "P"⟩] } "P" deepRow (some .legacy) = .ok (s, first) ∧
      importTable s "P" salesRow (some .legacy) = .ok (t, second) ∧
      ¬ ((t.nodesOf "P").map (·.levelPath)).Nodup := by
  refine ⟨by decide +kernel, ?_⟩
  obtain ⟨s, t, first, second, before, after, nodes⟩ := imports_deepRow_salesRow
  refine ⟨s, t, first, second, before, after, ?_⟩
  have paths := congrArg (List.map (·.2)) nodes
  rw [List.map_map] at paths
  change (t.nodesOf "P").map (·.levelPath) = _ at paths
  rw [paths]
  decide

end Service

end Rollup

import Mathlib.Data.List.Basic
import Mathlib.Tactic.SplitIfs
import Rollup.Proofs.HierarchyRow
import Rollup.Proofs.Import.Outcome
import Rollup.Proofs.RowGroup.Legacy
import Rollup.Proofs.RowGroup.Standard
import Rollup.Proofs.Store.WellFormed

/-!
# Imports keep a store well-formed

Whatever a file says, the nodes that an import adds have ids of their own and hang below stored or
new nodes, and no link closes a cycle.

Results:

* `addable_made`, `acc_made`: the new nodes can be added, and climbing from them ends.
* `wellFormed_rows`, `wellFormed_table`: a store is well-formed after an import.
-/

namespace Rollup

namespace ImportPlan

section Made

variable {p : ImportPlan} {s : Store} {marks : Bool} {added : List Placeholder}
  {ids : List String} {made : List Node}

theorem nodeIds_eq {stored : List Node}
    (drafted : (p.filled stored).Drafted stored p.project (p.drafts stored added)) :
    p.nodeIds stored =
      stored.map (·.hierarchyId) ++ (p.drafts stored added).map (·.node.hierarchyId) := by
  rw [nodeIds, drafted.entries, List.map_append, List.map_map]
  rfl

theorem addable_made (o : p.Outcome (s.nodesOf p.project) marks added ids made)
    (fresh : ∀ id ∈ ids, id ≠ "" ∧ id ∉ s.nodes.map (·.id))
    (trimmed : ∀ e ∈ p.drafts (s.nodesOf p.project) added,
      Text.trim e.node.hierarchyId = e.node.hierarchyId) : s.Addable p.project made := by
  -- every stored node is one of the drafts, under its id and below its parent
  have draft : ∀ m ∈ made, ∃ e ∈ p.drafts (s.nodesOf p.project) added, ∃ id ∈ ids,
      ∃ (q : Option Nat) (leaf : Bool), m.outline = e.node.storedAs id
        (q.bind (((s.nodesOf p.project).map (·.id) ++ ids)[·]?)) leaf := by
    intro m hm
    obtain ⟨k, hk⟩ := List.getElem?_of_mem hm
    obtain ⟨e, id, he, hid, eq⟩ := o.made_at hk
    exact ⟨e, List.mem_of_getElem? he, id, List.mem_of_getElem? hid, _, _, eq⟩
  refine ⟨?_, ?_, ?_, ?_, ?_, ?_, ?_, ?_⟩
  · rw [o.map_id]
    exact o.nodup
  · intro m hm
    refine fresh m.id ?_
    rw [← o.map_id]
    exact List.mem_map_of_mem hm
  · exact fun m hm => o.inProject hm
  · rw [o.map_hierarchyId]
    exact o.drafted.distinct
  · intro m hm
    obtain ⟨e, he, id, -, q, leaf, eq⟩ := draft m hm
    have : m.outline.hierarchyId = e.node.hierarchyId := by rw [eq]; rfl
    rw [show m.hierarchyId = e.node.hierarchyId from this]
    exact trimmed e he
  · intro m hm id hid
    obtain ⟨e, -, id', -, q, leaf, eq⟩ := draft m hm
    have : m.outline.parentId = q.bind (((s.nodesOf p.project).map (·.id) ++ ids)[·]?) := by
      rw [eq]; rfl
    rw [show m.parentId = _ from this] at hid
    obtain ⟨i, -, hi⟩ := Option.bind_eq_some_iff.mp hid
    rw [o.map_id]
    exact List.mem_of_getElem? hi
  · intro m hm
    obtain ⟨e, -, id, -, q, leaf, eq⟩ := draft m hm
    have root : m.outline.isRoot = m.outline.parentId.isNone := by rw [eq]; rfl
    rw [show m.isRoot = m.parentId.isNone from root, Option.isNone_iff_eq_none]
  · intro m hm
    rw [o.map_hierarchyId, ← nodeIds_eq o.drafted]
    exact o.closed m hm

/-- Climbing from a new node ends: its links do, and so do the climbs from stored nodes. -/
theorem acc_made {t : Store} (h : s.WellFormed)
    (o : p.Outcome (s.nodesOf p.project) marks added ids made)
    (fresh : ∀ id ∈ ids, id ≠ "" ∧ id ∉ s.nodes.map (·.id))
    (nodes : t.nodes = s.nodes ++ made) : ∀ m ∈ made, Acc t.IsParent m.id := by
  set stored := s.nodesOf p.project with hstored
  have new : ∀ m ∈ made, m.id ∉ s.nodes.map (·.id) := by
    intro m hm
    refine (fresh m.id ?_).2
    rw [← o.map_id]
    exact List.mem_map_of_mem hm
  have climb : ∀ i k m, i = k + stored.length → made[k]? = some m → Acc t.IsParent m.id := by
    intro i
    induction (linksOk o.drafted).grounded i with
    | intro i _ ih =>
      intro k m hi hm
      refine Acc.intro m.id fun a ha => ?_
      obtain ⟨n, hn, hid, hparent⟩ := ha
      -- the node with this id is the one at position `k`
      rw [nodes, List.mem_append] at hn
      have isMade : n ∈ made := by
        rcases hn with hn | hn
        · exact absurd (hid ▸ List.mem_map_of_mem hn) (new m (List.mem_of_getElem? hm))
        · exact hn
      have nodupIds : (made.map (·.id)).Nodup := o.map_id ▸ o.nodup
      obtain rfl : n = m :=
        List.inj_on_of_nodup_map nodupIds isMade (List.mem_of_getElem? hm) hid
      obtain ⟨e, id, -, -, eq⟩ := o.made_at hm
      have parentId : n.outline.parentId =
          (p.links stored (k + stored.length)).bind ((stored.map (·.id) ++ ids)[·]?) := by
        rw [eq]; rfl
      rw [show n.parentId = _ from parentId] at hparent
      obtain ⟨q, hq, ha⟩ := Option.bind_eq_some_iff.mp hparent
      by_cases old : q < stored.length
      · rw [List.getElem?_append_left (by simpa using old)] at ha
        refine Store.acc_of_stored h nodes new fun mem => ?_
        obtain ⟨m', hm', rfl⟩ := List.mem_map.mp mem
        obtain ⟨n', hn', same⟩ := List.mem_map.mp (List.mem_of_getElem? ha)
        exact new m' hm' (same ▸ List.mem_map_of_mem (Store.mem_nodesOf.mp hn').1)
      · rw [List.getElem?_append_right (by simpa using old), List.length_map, ← o.map_id,
          List.getElem?_map] at ha
        obtain ⟨m', hm', rfl⟩ := Option.map_eq_some_iff.mp ha
        exact ih q (by rw [Ancestry.Link, hi]; exact hq) (q - stored.length) m' (by omega) hm'
  intro m hm
  obtain ⟨k, hk⟩ := List.getElem?_of_mem hm
  exact climb _ k m rfl hk

end Made

/-- The hierarchy ids of the drafts of a plan are trimmed if those of its rows are. -/
theorem trimmed_drafts {project : String} {d : Dialect} {w : Window} {rows : List HierarchyRow}
    (trimmed : ∀ row ∈ rows, ∀ k, row.hierarchyId = some k → Text.trim k = k)
    (stored : List Node) {added : List Placeholder}
    (sublist : added.Sublist (ofRows project d w rows).1.placeholders) :
    ∀ e ∈ (ofRows project d w rows).1.drafts stored added,
      Text.trim e.node.hierarchyId = e.node.hierarchyId := by
  intro e he
  rcases List.mem_append.mp he with he | he
  · obtain ⟨q, hq, rfl⟩ := List.mem_map.mp he
    have hg := mem_groups_of_newGroups _ _ hq
    change Text.trim q.1.hierarchyId = q.1.hierarchyId
    cases d with
    | standard => exact RowGroup.Standard.trimmed_group trimmed hg
    | legacy => exact RowGroup.Legacy.trimmed_group trimmed hg
  · obtain ⟨h, hh, rfl⟩ := List.mem_map.mp he
    have hmem := sublist.subset hh
    cases d with
    | standard => cases hmem
    | legacy => exact RowGroup.Legacy.trimmed_missingAncestors hmem

end ImportPlan

namespace Import

/-- A store is well-formed after an import of rows with trimmed hierarchy ids. -/
theorem wellFormed_rows {s : Store} (h : s.WellFormed) {project : String} {d : Dialect} {w : Window}
    {marks : Bool} {rs : List HierarchyRow} (known : s.hasProject project = true)
    (trimmed : ∀ row ∈ rs, ∀ k, row.hierarchyId = some k → Text.trim k = k) :
    (rows .permissive s project d w marks rs).1.WellFormed := by
  obtain ⟨added, ids, made, warnings, o, fresh, eq⟩ := rows_outcome s project d w marks rs known h.ids
    (fun n hn => h.named n (Store.mem_nodesOf.mp hn).1) (h.keys project)
  rw [eq]
  refine h.append rfl (ImportPlan.addable_made o fresh ?_) (ImportPlan.acc_made h o fresh rfl)
  exact ImportPlan.trimmed_drafts trimmed _ o.sublist

/-- The rows of a table that can be read have trimmed hierarchy ids. -/
theorem trimmed_readRows (t : Table) (d : Dialect) :
    ∀ row ∈ readRows t d, ∀ k, row.hierarchyId = some k → Text.trim k = k := by
  intro row hrow
  obtain ⟨_, -, read⟩ := read_of_mem_readRows hrow
  exact Table.trimmed_hierarchyRow read

/-- A store is well-formed after an import of a table. -/
theorem wellFormed_table {s s' : Store} (h : s.WellFormed) {project : String} {d : Dialect}
    {w : Window} {t : Table} {summary : Summary}
    (done : table .permissive s project d w t = .ok (s', summary)) : s'.WellFormed := by
  by_cases known : s.hasProject project = true
  · rw [table_eq known] at done
    cases done
    exact wellFormed_rows h known (trimmed_readRows t d)
  · rw [table, tableIn_eq_error known] at done
    cases done

end Import

end Rollup

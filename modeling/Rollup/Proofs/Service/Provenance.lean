import Mathlib.Data.List.Basic
import Mathlib.Tactic.SplitIfs
import Rollup.Proofs.RowGroup.Build
import Rollup.Proofs.RowGroup.Together
import Rollup.Proofs.Service.Effect

/-!
# Where the nodes of a store come from

Every node of a reachable store was made by an import, from a group of rows or as a placeholder.
Later calls put mappings on it and resolve its references; its hierarchy id, its level path and its
metadata stay.

Results:

* `Effect.revision`: what a call does to the nodes that were there.
* `Added.map_stamp`: what the nodes of an import are made with.
* `provenance_of_reachable`: every node of a reachable store is settled and has the stamp of a group
  or a placeholder.
-/

namespace Rollup

/-! ## Rows of groups -/

theorem Value.keptFields_eq_self {fields : List (String × Value)}
    (kept : ∀ q ∈ fields, q.2.kept = q.2) : keptFields fields = fields := by
  induction fields with
  | nil => rfl
  | cons q fields ih =>
    rw [keptFields, kept q (by simp), ih fun r hr => kept r (by simp [hr])]

/-- The rows of a group are rows of the file. -/
theorem Dialect.mem_of_mem_rows {d : Dialect} {w : Window} {rows : List HierarchyRow} {g : RowGroup}
    (h : g ∈ (d.group w rows).1) : ∀ row ∈ g.rows, row ∈ rows := by
  cases d with
  | standard => exact fun row hrow => (RowGroup.Standard.keyedBy_group w rows).mem_rows h hrow
  | legacy => exact fun row hrow => ((RowGroup.Legacy.mem_group h).2.1 row hrow).1

/-- The metadata of the node of a group. -/
theorem Dialect.unmarked_group {d : Dialect} {w : Window} {t : Table} {g : RowGroup}
    (h : g ∈ (d.group w (Import.readRows t d)).1) (project : String) :
    ∀ q ∈ (g.node project).metadata, Unmarked q := by
  intro q hq
  obtain ⟨row, hrow, hq⟩ := List.mem_flatMap.mp (RowGroup.mem_of_mem_firstEntries hq)
  obtain ⟨_, -, read⟩ := Import.read_of_mem_readRows (mem_of_mem_rows h row hrow)
  exact Table.unmarked_hierarchyRow read q hq

/-! ## Stamps -/

/-- What a node is made with and keeps. -/
structure Node.Stamp where
  hierarchyId : String
  levelPath : List String
  metadata : Dict Value

/-- What a node is made with and keeps. -/
def Node.stamp (n : Node) : Node.Stamp :=
  ⟨n.hierarchyId, n.levelPath, n.metadata⟩

/-- The stamps that an import makes nodes with. -/
inductive Node.Stamp.FromFile : Node.Stamp → Prop where
  | group {d : Dialect} {w : Window} {t : Table} {g : RowGroup}
      (mem : g ∈ (d.group w (Import.readRows t d)).1) : FromFile (g.node "").stamp
  | placeholder {w : Window} {t : Table} {h : Placeholder}
      (mem : h ∈ RowGroup.Legacy.missingAncestors
        (RowGroup.Legacy.group w (Import.readRows t .legacy)).1) :
      FromFile (h.node "").stamp

/-- A node as a store keeps it, formulas aside: its filter says something, and no number in its
    metadata is kept as another one. -/
structure Node.Settled (n : Node) : Prop where
  filter : n.filter.filter (!·.isEmpty) = n.filter
  metadata : Value.keptFields n.metadata = n.metadata

theorem Node.kept_of_settled {n : Node} (h : n.Settled) :
    n.kept = { n with formula := n.formula.map Formula.kept } := by
  rw [kept, h.filter, h.metadata]

theorem Node.settled_kept {n : Node} (metadata : Value.keptFields n.metadata = n.metadata) :
    n.kept.Settled := by
  refine ⟨?_, ?_⟩
  · change (n.filter.filter _).filter _ = n.filter.filter _
    rw [Option.filter_filter]
    simp
  · change Value.keptFields (Value.keptFields n.metadata) = Value.keptFields n.metadata
    rw [metadata, metadata]

/-- A node after a call: as it was, or written again with the same stamp. -/
def Node.Revision (n m : Node) : Prop :=
  m = n ∨ ∃ k : Node, k.stamp = n.stamp ∧ m = k.kept

section Revision

variable {n m : Node} (h : n.Revision m) (before : n.Settled)

include h before

theorem Node.Revision.stamp_eq : m.stamp = n.stamp := by
  rcases h with rfl | ⟨k, same, rfl⟩
  · rfl
  · have metadata : k.metadata = n.metadata := congrArg Node.Stamp.metadata same
    have kept : k.kept.stamp = ⟨k.hierarchyId, k.levelPath, Value.keptFields k.metadata⟩ := rfl
    rw [kept, metadata, before.metadata, ← metadata]
    exact same

theorem Node.Revision.settled : m.Settled := by
  rcases h with rfl | ⟨k, same, rfl⟩
  · exact before
  · have metadata : k.metadata = n.metadata := congrArg Node.Stamp.metadata same
    exact settled_kept (by rw [metadata, before.metadata])

end Revision

theorem Node.revision_rewrite (d : Directory) (n : Node) : n.Revision (Resolution.rewrite d n) := by
  unfold Resolution.rewrite
  split_ifs
  · exact Or.inl rfl
  · exact Or.inr ⟨(d.resolveNode n).value, rfl, rfl⟩

theorem Node.revision_rewriteIn (project : String) (d : Directory) (n : Node) :
    n.Revision (Resolution.rewriteIn project d n) := by
  unfold Resolution.rewriteIn
  split_ifs
  · exact revision_rewrite d n
  · exact Or.inl rfl

theorem Node.revision_replacedBy {s : Store} {project : String} {ns : List Node} {m : Node}
    (ids : (s.nodes.map (·.id)).Nodup) (revises : ∀ n ∈ ns, MappingImport.Revises s project n)
    (mem : m ∈ s.nodes) : m.Revision (m.replacedBy ns) := by
  induction ns with
  | nil => exact Or.inl rfl
  | cons n ns ih =>
    rw [replacedBy_cons]
    split_ifs with hid
    · obtain ⟨old, hold, same⟩ := revises n (by simp)
      have place := place_of_unmapped same
      have eq : m = old := List.inj_on_of_nodup_map ids mem (Store.mem_nodesOf.mp hold).1
        (hid.symm.trans (congrArg Place.id place))
      have stamp : n.unmapped.stamp = m.unmapped.stamp := by rw [same, eq]
      exact Or.inr ⟨n, stamp, rfl⟩
    · exact ih fun k hk => revises k (by simp [hk])

theorem Node.revision_revised {s : Store} (ids : (s.nodes.map (·.id)).Nodup) (project : String)
    (t : Table) {m : Node} (mem : m ∈ s.nodes) :
    m.Revision (m.replacedBy (MappingImport.finish s project t).revised) := by
  have revises : ∀ n ∈ (MappingImport.finish s project t).revised,
      MappingImport.Revises s project n :=
    fun n hn => MappingImport.revises_finish ((MappingImport.Progress.sublist_revised _).subset hn)
  exact revision_replacedBy ids revises mem

/-! ## New nodes -/

namespace Service

section Added

variable {s : Store} {project : String} {table : Table} {d : Dialect} {added : List Placeholder}
  {ids : List String} {made : List Node} (h : Added s project table d added ids made)

include h

/-- The new nodes are those of the new groups, then those of the placeholders that were added. -/
theorem Added.map_stamp :
    made.map (·.stamp) =
      ((importPlan s project d table).newGroups (Batch.ofStored (s.nodesOf project))).map
          (fun q => (q.1.node "").stamp) ++
        added.map fun h => (h.node "").stamp := by
  have stamps := h.outcome.map_eq (f := Node.stamp)
    (g := fun e => ⟨e.node.hierarchyId, e.node.levelPath, Value.keptFields e.node.metadata⟩)
    fun _ _ _ _ _ _ eq => (congrArg Node.stamp eq :)
  rw [stamps, ImportPlan.drafts, List.map_append, List.map_map, List.map_map]
  refine congrArg (· ++ _) (List.map_congr_left fun q hq => ?_)
  have mem := ImportPlan.mem_groups_of_newGroups _ _ hq
  have kept := Value.keptFields_eq_self fun q' hq' => (Dialect.unmarked_group mem project q' hq').2
  exact congrArg (Node.Stamp.mk _ _) kept

/-- A new node is that of a group or that of a placeholder. -/
theorem Added.stamp_made {m : Node} (hm : m ∈ made) :
    (∃ g ∈ (importPlan s project d table).groups, m.stamp = (g.node "").stamp) ∨
      ∃ h ∈ (importPlan s project d table).placeholders, m.stamp = (h.node "").stamp := by
  have mem := List.mem_map_of_mem (f := Node.stamp) hm
  rw [h.map_stamp, List.mem_append, List.mem_map, List.mem_map] at mem
  rcases mem with ⟨q, hq, eq⟩ | ⟨p, hp, eq⟩
  · exact Or.inl ⟨q.1, ImportPlan.mem_groups_of_newGroups _ _ hq, eq.symm⟩
  · exact Or.inr ⟨p, h.outcome.sublist.subset hp, eq.symm⟩

theorem Added.fromFile {m : Node} (hm : m ∈ made) : m.stamp.FromFile := by
  rcases h.stamp_made hm with ⟨g, hg, eq⟩ | ⟨p, hp, eq⟩
  · rw [eq]
    exact .group hg
  · rw [eq]
    cases d with
    | standard => cases hp
    | legacy => exact .placeholder hp

theorem Added.settled {m : Node} (hm : m ∈ made) : m.Settled := by
  have metadata : Value.keptFields m.metadata = m.metadata := by
    have stamp := h.fromFile hm
    generalize hst : m.stamp = st at stamp
    have same : m.metadata = st.metadata := congrArg Node.Stamp.metadata hst
    rw [same]
    cases stamp with
    | group mem => exact Value.keptFields_eq_self fun q hq => (Dialect.unmarked_group mem "" q hq).2
    | placeholder mem => rfl
  rw [h.outcome.saved] at hm
  obtain ⟨q, -, rfl⟩ := List.mem_map.mp hm
  refine ⟨?_, metadata⟩
  change (q.1.node.filter.filter _).filter _ = q.1.node.filter.filter _
  rw [Option.filter_filter]
  simp

end Added

/-! ## All nodes -/

theorem revision_afterImport {s : Store} {project : String} {made : List Node} (n : Node) :
    n.Revision (afterImport s project made n) := by
  unfold afterImport
  split_ifs
  · exact Node.revision_rewriteIn _ _ n
  · exact Or.inl rfl

/-- After a call, every node was there before or is new. -/
theorem Effect.revision {s t : Store} {c : Call} (wf : s.WellFormed) (e : Effect s c t) :
    ∃ made : List Node, (∀ m ∈ made, m.Settled ∧ m.stamp.FromFile) ∧
      ∀ m ∈ t.nodes, ∃ n ∈ s.nodes ++ made, n.Revision m := by
  cases e with
  | found => exact ⟨[], by simp, fun m hm => ⟨m, List.mem_append_left _ hm, Or.inl rfl⟩⟩
  | created => exact ⟨[], by simp, fun m hm => ⟨m, List.mem_append_left _ hm, Or.inl rfl⟩⟩
  | configured => exact ⟨[], by simp, fun m hm => ⟨m, List.mem_append_left _ hm, Or.inl rfl⟩⟩
  | imported new =>
    refine ⟨_, fun m hm => ⟨new.settled hm, new.fromFile hm⟩, fun m hm => ?_⟩
    obtain ⟨n, hn, rfl⟩ := List.mem_map.mp hm
    exact ⟨n, hn, revision_afterImport n⟩
  | mapped =>
    refine ⟨[], by simp, fun m hm => ?_⟩
    obtain ⟨n, hn, rfl⟩ := List.mem_map.mp hm
    exact ⟨n, by simpa using hn, Node.revision_revised wf.ids _ _ hn⟩
  | resolved =>
    refine ⟨[], by simp, fun m hm => ?_⟩
    obtain ⟨n, hn, rfl⟩ := List.mem_map.mp hm
    exact ⟨n, by simpa using hn, Node.revision_rewriteIn _ _ n⟩

/-- Every node of a reachable store is settled, and an import made it. -/
theorem provenance_of_reachable {s : Store} (h : Reachable s) :
    ∀ n ∈ s.nodes, n.Settled ∧ n.stamp.FromFile := by
  induction h with
  | empty => simp
  | @call s t c reachable done ih =>
    have wf := wellFormed_of_reachable reachable
    obtain ⟨made, new, revision⟩ := (effect_of_run wf done).revision wf
    intro m hm
    obtain ⟨n, hn, rev⟩ := revision m hm
    have before : n.Settled ∧ n.stamp.FromFile :=
      (List.mem_append.mp hn).elim (ih n) (new n)
    exact ⟨rev.settled before.1, rev.stamp_eq before.1 ▸ before.2⟩

end Service

end Rollup

import Mathlib.Data.List.Nodup
import Mathlib.Logic.Relation
import Mathlib.Order.RelClasses
import Mathlib.Tactic.SplitIfs
import Rollup.Proofs.Reference
import Rollup.Proofs.Store.Writes

/-!
# Well-formed stores

What holds of every store that the service writes: storage ids and hierarchy ids are distinct,
parents are stored in the project of their children and climbing to them ends, and the children of
totals are stored hierarchies.

Results:

* `WellFormed.map`: rewriting nodes in their places keeps a store well-formed.
* `WellFormed.append`: so does adding nodes whose parents are stored or new.
* `WellFormed.acyclic`: no node is its own ancestor.
-/

namespace Rollup

/-- The identity and the place of a node. -/
structure Node.Place where
  id : String
  hierarchyId : String
  projectId : String
  parentId : Option String
  isRoot : Bool
  deriving DecidableEq

/-- The identity and the place of a node. -/
def Node.place (n : Node) : Node.Place :=
  ⟨n.id, n.hierarchyId, n.projectId, n.parentId, n.isRoot⟩

namespace Store

/-- Some node with storage id `child` has the storage id `parent` as its parent. -/
def IsParent (s : Store) (parent child : String) : Prop :=
  ∃ n ∈ s.nodes, n.id = child ∧ n.parentId = some parent

/-- What holds of every store that the service writes. -/
structure WellFormed (s : Store) : Prop where
  ids : (s.nodes.map (·.id)).Nodup
  named : ∀ n ∈ s.nodes, n.id ≠ ""
  keys : ∀ project, ((s.nodesOf project).map (·.hierarchyId)).Nodup
  trimmed : ∀ n ∈ s.nodes, Text.trim n.hierarchyId = n.hierarchyId
  parents : ∀ n ∈ s.nodes, ∀ id, n.parentId = some id →
    ∃ m ∈ s.nodes, m.id = id ∧ m.projectId = n.projectId
  grounded : ∀ id, Acc s.IsParent id
  roots : ∀ n ∈ s.nodes, n.isRoot = true ↔ n.parentId = none
  totals : ∀ n ∈ s.nodes, n.ChildrenIn ((s.nodesOf n.projectId).map (·.hierarchyId))

theorem wellFormed_of_nodes_nil {s : Store} (h : s.nodes = []) : s.WellFormed := by
  have none : ∀ n, n ∉ s.nodes := by simp [h]
  refine ⟨by simp [h], ?_, by simp [nodesOf, h], ?_, ?_, ?_, ?_, ?_⟩
  · exact fun n hn => absurd hn (none n)
  · exact fun n hn => absurd hn (none n)
  · exact fun n hn => absurd hn (none n)
  · intro id
    refine Acc.intro id fun p hp => ?_
    obtain ⟨n, hn, -⟩ := hp
    exact absurd hn (none n)
  · exact fun n hn => absurd hn (none n)
  · exact fun n hn => absurd hn (none n)

/-- No node is its own ancestor. -/
theorem WellFormed.acyclic {s : Store} (h : s.WellFormed) (id : String) :
    ¬ Relation.TransGen s.IsParent id id := by
  have wf : WellFounded (Relation.TransGen s.IsParent) := WellFounded.transGen ⟨h.grounded⟩
  exact fun cycle => wf.asymmetric id id cycle cycle

/-- Only nodes count: projects and settings do not matter. -/
theorem WellFormed.of_nodes_eq {s t : Store} (h : s.WellFormed) (same : t.nodes = s.nodes) :
    t.WellFormed := by
  have of : ∀ project, t.nodesOf project = s.nodesOf project := by
    intro project
    rw [nodesOf, same]
    rfl
  have isParent : t.IsParent = s.IsParent := by
    funext a b
    rw [IsParent, same]
    rfl
  refine ⟨?_, ?_, ?_, ?_, ?_, ?_, ?_, ?_⟩
  · rw [same]; exact h.ids
  · rw [same]; exact h.named
  · intro project
    rw [of]
    exact h.keys project
  · rw [same]; exact h.trimmed
  · rw [same]; exact h.parents
  · rw [isParent]; exact h.grounded
  · rw [same]; exact h.roots
  · rw [same]
    intro n hn
    rw [of]
    exact h.totals n hn

/-! ## Rewriting nodes -/

section Map

variable {s t : Store} {f : Node → Node}

/-- Rewriting nodes within their projects rewrites those of a project. -/
theorem nodesOf_map (nodes : t.nodes = s.nodes.map f)
    (projects : ∀ n ∈ s.nodes, (f n).projectId = n.projectId) (project : String) :
    t.nodesOf project = (s.nodesOf project).map f := by
  rw [nodesOf, nodes, List.filter_map, nodesOf]
  congr 1
  refine List.filter_congr fun n hn => ?_
  rw [Function.comp_apply, projects n hn]

theorem map_hierarchyId_nodesOf (nodes : t.nodes = s.nodes.map f)
    (places : ∀ n ∈ s.nodes, (f n).place = n.place) (project : String) :
    (t.nodesOf project).map (·.hierarchyId) = (s.nodesOf project).map (·.hierarchyId) := by
  rw [nodesOf_map nodes (fun n hn => congrArg Node.Place.projectId (places n hn)), List.map_map]
  exact List.map_congr_left fun n hn =>
    congrArg Node.Place.hierarchyId (places n (mem_nodesOf.mp hn).1)

/-- Rewriting nodes in their places keeps a store well-formed, as long as totals keep to stored
    hierarchies. -/
theorem WellFormed.map (h : s.WellFormed) (nodes : t.nodes = s.nodes.map f)
    (places : ∀ n ∈ s.nodes, (f n).place = n.place)
    (totals : ∀ n ∈ s.nodes,
      (f n).ChildrenIn ((s.nodesOf n.projectId).map (·.hierarchyId))) : t.WellFormed := by
  have id : ∀ n ∈ s.nodes, (f n).id = n.id := fun n hn => congrArg Node.Place.id (places n hn)
  have key : ∀ n ∈ s.nodes, (f n).hierarchyId = n.hierarchyId :=
    fun n hn => congrArg Node.Place.hierarchyId (places n hn)
  have projectId : ∀ n ∈ s.nodes, (f n).projectId = n.projectId :=
    fun n hn => congrArg Node.Place.projectId (places n hn)
  have parentId : ∀ n ∈ s.nodes, (f n).parentId = n.parentId :=
    fun n hn => congrArg Node.Place.parentId (places n hn)
  have isRoot : ∀ n ∈ s.nodes, (f n).isRoot = n.isRoot :=
    fun n hn => congrArg Node.Place.isRoot (places n hn)
  have back : ∀ m ∈ t.nodes, ∃ n ∈ s.nodes, f n = m := by
    intro m hm
    rw [nodes] at hm
    exact List.mem_map.mp hm
  refine ⟨?_, ?_, ?_, ?_, ?_, ?_, ?_, ?_⟩
  · rw [nodes, List.map_map]
    have : s.nodes.map ((fun n : Node => n.id) ∘ f) = s.nodes.map (·.id) :=
      List.map_congr_left id
    rw [this]
    exact h.ids
  · intro m hm
    obtain ⟨n, hn, rfl⟩ := back m hm
    rw [id n hn]
    exact h.named n hn
  · intro project
    rw [map_hierarchyId_nodesOf nodes places]
    exact h.keys project
  · intro m hm
    obtain ⟨n, hn, rfl⟩ := back m hm
    rw [key n hn]
    exact h.trimmed n hn
  · intro m hm pid hpid
    obtain ⟨n, hn, rfl⟩ := back m hm
    rw [parentId n hn] at hpid
    obtain ⟨q, hq, hid, hproject⟩ := h.parents n hn pid hpid
    refine ⟨f q, ?_, (id q hq).trans hid, ?_⟩
    · rw [nodes]
      exact List.mem_map_of_mem hq
    · rw [projectId q hq, hproject, projectId n hn]
  · have isParent : ∀ a b, t.IsParent a b → s.IsParent a b := by
      rintro a b ⟨m, hm, hb, ha⟩
      obtain ⟨n, hn, rfl⟩ := back m hm
      exact ⟨n, hn, (id n hn).symm.trans hb, (parentId n hn).symm.trans ha⟩
    intro a
    exact Subrelation.accessible (fun hab => isParent _ _ hab) (h.grounded a)
  · intro m hm
    obtain ⟨n, hn, rfl⟩ := back m hm
    rw [isRoot n hn, parentId n hn]
    exact h.roots n hn
  · intro m hm
    obtain ⟨n, hn, rfl⟩ := back m hm
    rw [projectId n hn, map_hierarchyId_nodesOf nodes places]
    exact totals n hn

end Map

/-- Replacing a node by one with its place keeps a store well-formed. -/
theorem WellFormed.update {s t : Store} (h : s.WellFormed) {n old : Node}
    (written : s.update n = .ok t) (mem : old ∈ s.nodes) (place : n.place = old.place)
    (total : n.total? = old.total?) : t.WellFormed := by
  have same : ∀ m ∈ s.nodes, m.id = n.id → m = old := by
    intro m hm hid
    exact List.inj_on_of_nodup_map h.ids hm mem
      (hid.trans (congrArg Node.Place.id place))
  refine h.map (nodes_update written) ?_ ?_
  · intro m hm
    split_ifs with hid
    · obtain rfl := same m hm hid
      rw [← place]
      have project : m.projectId = n.projectId := (congrArg Node.Place.projectId place).symm
      simp only [Node.place, project]
      rfl
    · rfl
  · intro m hm
    split_ifs with hid
    · obtain rfl := same m hm hid
      intro t ht
      have kept : ({ n.kept with projectId := m.projectId } : Node).total? = n.kept.total? := rfl
      rw [kept, Node.total?_kept, total] at ht
      exact h.totals m hm t ht
    · exact h.totals m hm

/-! ## Adding nodes -/

/-- Nodes that can be added to a project: under ids of their own, below stored or new nodes of the
    project. -/
structure Addable (s : Store) (project : String) (made : List Node) : Prop where
  ids : (made.map (·.id)).Nodup
  fresh : ∀ m ∈ made, m.id ≠ "" ∧ m.id ∉ s.nodes.map (·.id)
  inProject : ∀ m ∈ made, m.projectId = project
  keys : ((s.nodesOf project).map (·.hierarchyId) ++ made.map (·.hierarchyId)).Nodup
  trimmed : ∀ m ∈ made, Text.trim m.hierarchyId = m.hierarchyId
  parents : ∀ m ∈ made, ∀ id, m.parentId = some id →
    id ∈ (s.nodesOf project).map (·.id) ++ made.map (·.id)
  roots : ∀ m ∈ made, m.isRoot = true ↔ m.parentId = none
  totals : ∀ m ∈ made,
    m.ChildrenIn ((s.nodesOf project).map (·.hierarchyId) ++ made.map (·.hierarchyId))

section Append

variable {s t : Store} {project : String} {made : List Node}

theorem nodesOf_append (nodes : t.nodes = s.nodes ++ made)
    (inProject : ∀ m ∈ made, m.projectId = project) (project' : String) :
    t.nodesOf project' = s.nodesOf project' ++ if project' = project then made else [] := by
  rw [nodesOf, nodes, List.filter_append]
  congr 1
  split_ifs with same
  · rw [List.filter_eq_self]
    intro m hm
    rw [inProject m hm, same, beq_self_eq_true]
  · rw [List.filter_eq_nil_iff]
    intro m hm
    rw [inProject m hm, beq_iff_eq]
    exact fun e => same e.symm

/-- Climbing from a node that was stored before ends, whatever is added. -/
theorem acc_of_stored (h : s.WellFormed) (nodes : t.nodes = s.nodes ++ made)
    (fresh : ∀ m ∈ made, m.id ∉ s.nodes.map (·.id)) {id : String}
    (stored : id ∉ made.map (·.id)) : Acc t.IsParent id := by
  induction h.grounded id with
  | intro id _ ih =>
    refine Acc.intro id fun q hq => ?_
    obtain ⟨n, hn, hid, hparent⟩ := hq
    rw [nodes, List.mem_append] at hn
    rcases hn with hn | hn
    · refine ih q ⟨n, hn, hid, hparent⟩ ?_
      obtain ⟨m, hm, rfl, -⟩ := h.parents n hn q hparent
      intro mem
      obtain ⟨m', hm', same⟩ := List.mem_map.mp mem
      exact fresh m' hm' (same ▸ List.mem_map_of_mem hm)
    · exact absurd (hid ▸ List.mem_map_of_mem hn) stored

/-- Adding nodes keeps a store well-formed if climbing from them ends. -/
theorem WellFormed.append (h : s.WellFormed) (nodes : t.nodes = s.nodes ++ made)
    (add : s.Addable project made) (grounded : ∀ m ∈ made, Acc t.IsParent m.id) :
    t.WellFormed := by
  have of := nodesOf_append nodes add.inProject
  have mem : ∀ n, n ∈ t.nodes ↔ n ∈ s.nodes ∨ n ∈ made := by
    intro n
    rw [nodes, List.mem_append]
  refine ⟨?_, ?_, ?_, ?_, ?_, ?_, ?_, ?_⟩
  · rw [nodes, List.map_append, List.nodup_append]
    refine ⟨h.ids, add.ids, ?_⟩
    rintro a ha b hb rfl
    obtain ⟨m, hm, rfl⟩ := List.mem_map.mp hb
    exact (add.fresh m hm).2 ha
  · intro n hn
    rcases (mem n).mp hn with hn | hn
    · exact h.named n hn
    · exact (add.fresh n hn).1
  · intro project'
    rw [of project', List.map_append]
    split_ifs with same
    · rw [same]
      exact add.keys
    · rw [List.map_nil, List.append_nil]
      exact h.keys project'
  · intro n hn
    rcases (mem n).mp hn with hn | hn
    · exact h.trimmed n hn
    · exact add.trimmed n hn
  · intro n hn id hid
    rcases (mem n).mp hn with hn | hn
    · obtain ⟨m, hm, rest⟩ := h.parents n hn id hid
      exact ⟨m, (mem m).mpr (Or.inl hm), rest⟩
    · rw [add.inProject n hn]
      rcases List.mem_append.mp (add.parents n hn id hid) with hp | hp
      · obtain ⟨m, hm, rfl⟩ := List.mem_map.mp hp
        obtain ⟨hm, hproject⟩ := mem_nodesOf.mp hm
        exact ⟨m, (mem m).mpr (Or.inl hm), rfl, hproject⟩
      · obtain ⟨m, hm, rfl⟩ := List.mem_map.mp hp
        exact ⟨m, (mem m).mpr (Or.inr hm), rfl, add.inProject m hm⟩
  · intro id
    by_cases new : id ∈ made.map (·.id)
    · obtain ⟨m, hm, rfl⟩ := List.mem_map.mp new
      exact grounded m hm
    · exact acc_of_stored h nodes (fun m hm => (add.fresh m hm).2) new
  · intro n hn
    rcases (mem n).mp hn with hn | hn
    · exact h.roots n hn
    · exact add.roots n hn
  · intro n hn t' ht' c hc
    rcases (mem n).mp hn with hn | hn
    · obtain ⟨k, hk, hc⟩ := h.totals n hn t' ht' c hc
      refine ⟨k, ?_, hc⟩
      rw [of, List.map_append]
      exact List.mem_append_left _ hk
    · obtain ⟨k, hk, hc⟩ := add.totals n hn t' ht' c hc
      refine ⟨k, ?_, hc⟩
      rw [of, if_pos (add.inProject n hn), List.map_append, add.inProject n hn]
      exact hk

end Append

end Store

end Rollup

import Mathlib.Data.List.Nodup
import Rollup.Store

/-!
# When writes succeed

The store refuses a write only for a stated reason. Without one, a node that is not stored yet is
created under a fresh storage id, and a stored node is replaced in its place.

Results:

* `create_unsaved`: a node with a free hierarchy id in a stored project is created.
* `update_stored`: a stored node whose hierarchy id no other node has is replaced.
* `update_between`: what a replacement does to a list of nodes that is split at the node.
-/

namespace Rollup

namespace Node

@[simp] theorem kept_id (n : Node) : n.kept.id = n.id := rfl
@[simp] theorem kept_hierarchyId (n : Node) : n.kept.hierarchyId = n.hierarchyId := rfl
@[simp] theorem kept_projectId (n : Node) : n.kept.projectId = n.projectId := rfl
@[simp] theorem kept_parentId (n : Node) : n.kept.parentId = n.parentId := rfl
@[simp] theorem kept_isRoot (n : Node) : n.kept.isRoot = n.isRoot := rfl

@[simp] theorem withParent_id (n : Node) (p : Option String) : (n.withParent p).id = n.id := rfl
@[simp] theorem withParent_hierarchyId (n : Node) (p : Option String) :
    (n.withParent p).hierarchyId = n.hierarchyId := rfl
@[simp] theorem withParent_projectId (n : Node) (p : Option String) :
    (n.withParent p).projectId = n.projectId := rfl
@[simp] theorem withParent_parentId (n : Node) (p : Option String) :
    (n.withParent p).parentId = p := rfl
@[simp] theorem withParent_isRoot (n : Node) (p : Option String) :
    (n.withParent p).isRoot = p.isNone := rfl

end Node

namespace Store

/-! ## Fresh storage ids -/

theorem idText_ne_empty (n : Nat) : idText n ≠ "" := by
  unfold idText
  rw [Ne, String.append_eq_empty_iff]
  rintro ⟨h, -⟩
  revert h
  decide

theorem freshId_ne_empty (s : Store) : s.freshId ≠ "" := by
  unfold freshId
  dsimp only
  by_cases taken : idText s.nodes.length ∈ s.idsInUse
  · rw [if_pos taken]
    intro h
    have empty := congrArg String.toList h
    rw [String.toList_ofList, List.replicate_succ] at empty
    cases empty
  · rw [if_neg taken]
    exact idText_ne_empty _

theorem freshId_notMem_ids (s : Store) : s.freshId ∉ s.nodes.map (·.id) := by
  intro h
  exact s.freshId_notMem (List.mem_append_left _ h)

/-! ## Lookups -/

theorem mem_nodesOf {s : Store} {project : String} {n : Node} :
    n ∈ s.nodesOf project ↔ n ∈ s.nodes ∧ n.projectId = project := by
  simp [nodesOf]

theorem node?_eq_none_iff {s : Store} {project hierarchyId : String} :
    s.node? project hierarchyId = none ↔
      hierarchyId ∉ (s.nodesOf project).map (·.hierarchyId) := by
  simp [node?]

/-! ## Creating -/

/-- A node that is not stored and whose hierarchy id is free in a stored project is created under a
    fresh id. -/
theorem create_unsaved {s : Store} {n : Node} (unsaved : n.id = "")
    (free : n.hierarchyId ∉ (s.nodesOf n.projectId).map (·.hierarchyId))
    (known : s.hasProject n.projectId = true) :
    s.create n =
      .ok (s.freshId, { s with nodes := s.nodes ++ [{ n.kept with id := s.freshId }] }) := by
  have id_eq : s.idFor n = s.freshId := by rw [idFor, if_pos unsaved]
  have no_node : (s.node? n.projectId n.hierarchyId).isSome = false := by
    rw [node?_eq_none_iff.mpr free]; rfl
  have no_id : s.nodes.any (·.id == s.freshId) = false := by
    rw [List.any_eq_false]
    intro m hm h
    exact s.freshId_notMem_ids (List.mem_map.mpr ⟨m, hm, by simpa using h⟩)
  unfold create
  simp only [id_eq, no_node, no_id, known]
  rfl

/-! ## Replacing -/

/-- A stored node is replaced, provided that no other node of its project has its hierarchy id. -/
theorem update_stored {s : Store} {n old : Node} (mem : old ∈ s.nodes) (same : old.id = n.id)
    (ids : (s.nodes.map (·.id)).Nodup)
    (free : ∀ m ∈ s.nodesOf old.projectId, m.hierarchyId = n.hierarchyId → m.id = n.id) :
    s.update n = .ok { s with nodes := s.nodes.map fun m =>
      if m.id = n.id then { n.kept with projectId := m.projectId } else m } := by
  have found : s.nodes.find? (·.id == n.id) = some old := by
    cases h : s.nodes.find? (·.id == n.id) with
    | none =>
      rw [List.find?_eq_none] at h
      exact absurd (by simpa using same) (h old mem)
    | some m =>
      have hm : m ∈ s.nodes := List.mem_of_find?_eq_some h
      have hid : m.id = n.id := by simpa using List.find?_some h
      rw [List.inj_on_of_nodup_map ids hm mem (hid.trans same.symm)]
  have no_clash : ((s.nodesOf old.projectId).any fun m =>
      m.hierarchyId == n.hierarchyId && m.id != n.id) = false := by
    rw [List.any_eq_false]
    intro m hm h
    rw [Bool.and_eq_true, beq_iff_eq, bne_iff_ne] at h
    exact h.2 (free m hm h.1)
  simp only [update, found, no_clash]
  rfl

/-- In a list of nodes with distinct ids, only the node with the id of `n` is replaced. -/
theorem map_replace {before after : List Node} {old n : Node} (same : old.id = n.id)
    (ids : ((before ++ old :: after).map (·.id)).Nodup) :
    ((before ++ old :: after).map fun m =>
      if m.id = n.id then { n.kept with projectId := m.projectId } else m) =
      before ++ { n.kept with projectId := old.projectId } :: after := by
  have others : ∀ m ∈ before ++ after, m.id ≠ n.id := by
    intro m hm h
    rw [List.map_append, List.map_cons, List.nodup_middle, List.nodup_cons] at ids
    refine ids.1 ?_
    rw [← List.map_append]
    exact List.mem_map.mpr ⟨m, hm, h.trans same.symm⟩
  have stay : ∀ l : List Node, (∀ m ∈ l, m.id ≠ n.id) → (l.map fun m =>
      if m.id = n.id then { n.kept with projectId := m.projectId } else m) = l := by
    intro l hl
    nth_rewrite 2 [← List.map_id l]
    refine List.map_congr_left fun m hm => ?_
    rw [if_neg (hl m hm)]
    rfl
  rw [List.map_append, List.map_cons, if_pos same,
    stay before fun m hm => others m (List.mem_append_left _ hm),
    stay after fun m hm => others m (List.mem_append_right _ hm)]

/-- A replacement in a store whose nodes are split at the node. -/
theorem update_between {s : Store} {before after : List Node} {old n : Node}
    (split : s.nodes = before ++ old :: after) (same : old.id = n.id)
    (ids : (s.nodes.map (·.id)).Nodup)
    (free : ∀ m ∈ s.nodesOf old.projectId, m.hierarchyId = n.hierarchyId → m.id = n.id) :
    s.update n = .ok { s with
      nodes := before ++ { n.kept with projectId := old.projectId } :: after } := by
  have mem : old ∈ s.nodes := by rw [split]; simp
  rw [update_stored mem same ids free]
  rw [split] at ids ⊢
  rw [map_replace same ids]

end Store

end Rollup

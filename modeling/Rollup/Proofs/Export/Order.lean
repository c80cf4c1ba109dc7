import Mathlib.Algebra.BigOperators.Group.List.Basic
import Mathlib.Algebra.GroupWithZero.Nat
import Mathlib.Data.List.Nodup
import Mathlib.Data.List.Perm.Subperm
import Rollup.Export.Order
import Rollup.Proofs.Forest

/-!
# An export visits every node once

The walk of an export takes one position off its stack in each step. A position is put on the stack
as a start, as a root and as the offspring of its parent, and no position is both a root and
offspring. So the number of steps is enough to empty the stack.

Results:

* `mem_children`, `mem_offspring`, `mem_roots`: which positions these are.
* `any_children`: which nodes have children.
* `walk_spec`: what a walk visits if it has enough steps.
* `perm_exportOrder`: an export visits every position once.
-/

namespace Rollup.Forest

/-! ## Forests of nodes -/

theorem length_parents_ofNodes (nodes : List Node) :
    (ofNodes nodes).parents.length = (ofNodes nodes).size := by
  rw [ofNodes, size, List.length_map]

variable {f : Forest}

theorem mem_children {i j : Nat} : j ∈ f.children i ↔ f.parent? j = some i := by
  rw [children, List.mem_map, parent?]
  constructor
  · rintro ⟨q, hq, rfl⟩
    obtain ⟨mem, parent⟩ := List.mem_filter.mp hq
    rw [List.mem_zipIdx_iff_getElem?.mp mem, Option.join_some]
    simpa using parent
  · intro h
    cases here : f.parents[j]? with
    | none => rw [here] at h; cases h
    | some o =>
      rw [here, Option.join_some] at h
      subst h
      exact ⟨(some i, j), List.mem_filter.mpr ⟨List.mem_zipIdx_iff_getElem?.mpr here, by simp⟩, rfl⟩

/-- Where storage ids are distinct and a node is not its own parent, the node has children if some
    node names it as its parent. -/
theorem any_children {nodes : List Node} (ids : (nodes.map (·.id)).Nodup) {i : Nat} {n : Node}
    (here : nodes[i]? = some n) (apart : (ofNodes nodes).parent? i ≠ some i) :
    ((ofNodes nodes).children i).any (· ≠ i) = nodes.any (·.parentId == some n.id) := by
  rw [Bool.eq_iff_iff, List.any_eq_true, List.any_eq_true]
  constructor
  · rintro ⟨j, hj, -⟩
    obtain ⟨c, m, hc, hm, link⟩ := link_ofNodes (mem_children.mp hj)
    rw [here] at hm
    cases hm
    exact ⟨c, List.mem_of_getElem? hc, by simp [link]⟩
  · rintro ⟨c, hc, link⟩
    obtain ⟨j, hj⟩ := List.getElem?_of_mem hc
    have parent := parent?_of_link ids hj here (by simpa using link)
    refine ⟨j, mem_children.mpr parent, ?_⟩
    rw [decide_eq_true_eq]
    rintro rfl
    exact apart parent

theorem nodup_children (i : Nat) : (f.children i).Nodup := by
  refine List.Nodup.sublist (List.filter_sublist.map _) ?_
  rw [List.zipIdx_map_snd]
  exact List.nodup_range'

@[simp] theorem mem_bySortOrder {positions : List Nat} {i : Nat} :
    i ∈ f.bySortOrder positions ↔ i ∈ positions :=
  mem_stableSort _ _ _

theorem mem_offspring {i j : Nat} : j ∈ f.offspring i ↔ f.parent? j = some i ∧ j ≠ i := by
  rw [offspring, mem_bySortOrder, List.mem_filter, mem_children]
  simp

theorem mem_roots {i : Nat} :
    i ∈ f.roots ↔ i < f.size ∧ (f.parent? i = none ∨ f.parent? i = some i) := by
  rw [roots, mem_bySortOrder, List.mem_filter, List.mem_range]
  cases h : f.parent? i <;> simp

theorem nodup_bySortOrder {positions : List Nat} (h : positions.Nodup) :
    (f.bySortOrder positions).Nodup :=
  (perm_stableSort _ _).nodup_iff.mpr h

theorem lt_size_of_parent? (whole : f.parents.length = f.size) {i j : Nat}
    (h : f.parent? j = some i) : j < f.size := by
  cases here : f.parents[j]? with
  | none => rw [parent?, here] at h; cases h
  | some o =>
    rw [← whole]
    exact (List.getElem?_eq_some_iff.mp here).1

/-! ## The steps of a walk -/

/-- How many positions the offspring of the positions still to be visited are. -/
def pending (f : Forest) (order : List Nat) : Nat :=
  (((List.range f.size).filter (· ∉ order)).map fun i => (f.offspring i).length).sum

/-- A visit puts the offspring of the position on the stack. -/
theorem pending_visit {order : List Nat} {i : Nat} (inside : i < f.size) (new : i ∉ order) :
    f.pending order = (f.offspring i).length + f.pending (order ++ [i]) := by
  have perm : ((List.range f.size).filter (· ∉ order)).Perm
      (i :: (List.range f.size).filter (· ∉ order ++ [i])) := by
    rw [List.perm_ext_iff_of_nodup (List.nodup_range.filter _)]
    · intro j
      simp only [List.mem_filter, List.mem_range, decide_eq_true_eq, List.mem_cons, List.mem_append,
        List.not_mem_nil, or_false, not_or]
      constructor
      · rintro ⟨hj, fresh⟩
        by_cases same : j = i
        · exact Or.inl same
        · exact Or.inr ⟨hj, fresh, same⟩
      · rintro (rfl | ⟨hj, fresh, -⟩)
        · exact ⟨inside, new⟩
        · exact ⟨hj, fresh⟩
    · rw [List.nodup_cons]
      exact ⟨by simp, List.nodup_range.filter _⟩
  rw [pending, (perm.map _).sum_eq, List.map_cons, List.sum_cons]
  rfl

/-- With enough steps a walk visits all that is on its stack, and nothing twice. -/
theorem walk_spec (whole : f.parents.length = f.size) (steps : Nat) :
    ∀ stack order : List Nat, order.Nodup → (∀ i ∈ order, i < f.size) →
      (∀ i ∈ stack, i < f.size) → stack.length + f.pending order ≤ steps →
      (f.walk steps stack order).Nodup ∧ (∀ i ∈ f.walk steps stack order, i < f.size) ∧
        ∀ i, i ∈ order ∨ i ∈ stack → i ∈ f.walk steps stack order := by
  induction steps with
  | zero =>
    intro stack order nodup inside _ enough
    have empty : stack = [] := List.length_eq_zero_iff.mp (by omega)
    subst empty
    exact ⟨nodup, inside, fun i h => h.resolve_right (by simp)⟩
  | succ steps ih =>
    intro stack order nodup inside stacked enough
    cases stack with
    | nil => exact ⟨nodup, inside, fun i h => h.resolve_right (by simp)⟩
    | cons i stack =>
      have here := stacked i (by simp)
      have rest : ∀ j ∈ stack, j < f.size := fun j hj => stacked j (by simp [hj])
      rw [List.length_cons] at enough
      rw [walk]
      split
      · rename_i seen
        obtain ⟨visited, range, covers⟩ := ih stack order nodup inside rest (by omega)
        refine ⟨visited, range, fun j hj => covers j ?_⟩
        rcases hj with hj | hj
        · exact Or.inl hj
        · rcases List.mem_cons.mp hj with rfl | hj
          · exact Or.inl seen
          · exact Or.inr hj
      · rename_i new
        have visit := pending_visit here new
        obtain ⟨visited, range, covers⟩ := ih (f.offspring i ++ stack) (order ++ [i])
          (List.nodup_append.mpr ⟨nodup, List.nodup_singleton i, by
            rintro a ha b hb rfl
            exact new (List.mem_singleton.mp hb ▸ ha)⟩)
          (by
            intro j hj
            rcases List.mem_append.mp hj with hj | hj
            · exact inside j hj
            · exact List.mem_singleton.mp hj ▸ here)
          (by
            intro j hj
            rcases List.mem_append.mp hj with hj | hj
            · exact lt_size_of_parent? whole (mem_offspring.mp hj).1
            · exact rest j hj)
          (by rw [List.length_append]; omega)
        refine ⟨visited, range, fun j hj => covers j ?_⟩
        rw [List.mem_append, List.mem_append]
        rcases hj with hj | hj
        · exact Or.inl (Or.inl hj)
        · rcases List.mem_cons.mp hj with rfl | hj
          · exact Or.inl (Or.inr (by simp))
          · exact Or.inr (Or.inr hj)

/-- No position is both a root and offspring, and none is the offspring of two. -/
theorem length_roots_add_pending (whole : f.parents.length = f.size) :
    f.roots.length + f.pending [] ≤ f.size := by
  have nodup : (f.roots ++ (List.range f.size).flatMap f.offspring).Nodup := by
    refine List.nodup_append.mpr ⟨nodup_bySortOrder (List.nodup_range.filter _), ?_, ?_⟩
    · rw [List.nodup_flatMap]
      refine ⟨fun i _ => nodup_bySortOrder ((nodup_children i).filter _), ?_⟩
      refine List.nodup_range.imp ?_
      intro i j ne k hi hj
      have := (mem_offspring.mp hi).1.symm.trans (mem_offspring.mp hj).1
      exact ne (Option.some.inj this)
    · rintro j hj k hk rfl
      obtain ⟨i, -, hi⟩ := List.mem_flatMap.mp hk
      obtain ⟨parent, other⟩ := mem_offspring.mp hi
      rcases (mem_roots.mp hj).2 with none | self
      · rw [none] at parent
        cases parent
      · rw [self] at parent
        exact other (Option.some.inj parent)
  have subset : f.roots ++ (List.range f.size).flatMap f.offspring ⊆ List.range f.size := by
    intro j hj
    rw [List.mem_range]
    rcases List.mem_append.mp hj with hj | hj
    · exact (mem_roots.mp hj).1
    · obtain ⟨i, -, hi⟩ := List.mem_flatMap.mp hj
      exact lt_size_of_parent? whole (mem_offspring.mp hi).1
  have length := (List.subperm_of_subset nodup subset).length_le
  rw [List.length_append, List.length_flatMap, List.length_range] at length
  simpa [pending] using length

/-- An export visits every position once. -/
theorem perm_exportOrder (whole : f.parents.length = f.size) :
    f.exportOrder.Perm (List.range f.size) := by
  have bound := length_roots_add_pending whole
  obtain ⟨nodup, inside, covers⟩ := walk_spec whole (2 * f.size) (f.roots ++ List.range f.size) []
    List.nodup_nil (by simp)
    (by
      intro i hi
      rcases List.mem_append.mp hi with hi | hi
      · exact (mem_roots.mp hi).1
      · exact List.mem_range.mp hi)
    (by rw [List.length_append, List.length_range]; omega)
  rw [exportOrder, List.perm_ext_iff_of_nodup nodup List.nodup_range]
  intro i
  rw [List.mem_range]
  exact ⟨inside i, fun h => covers i (Or.inr (List.mem_append_right _ (List.mem_range.mpr h)))⟩

end Rollup.Forest

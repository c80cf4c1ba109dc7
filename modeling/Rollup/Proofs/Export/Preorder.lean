import Mathlib.Data.List.Basic
import Mathlib.Data.List.Nodup
import Rollup.Proofs.Export.Order
import Rollup.Proofs.Forest

/-!
# The order of an export is a preorder

Where no node is its own ancestor but for nodes that are their own parents, an export visits each
root and then, one after the other, the subtrees of its children. Siblings therefore stand in the
order in which they are sorted.

Results:

* `exportOrder_eq_preorder`: the walk of an export is the recursive preorder.
* `offspring_sublist`, `roots_sublist`: siblings keep their order.
-/

namespace Rollup.Forest

open Ancestry Relation

/-! ## Preorder -/

/-- The subtree of a position in preorder, cut off at a depth. -/
def subtree (f : Forest) : (depth : Nat) → Nat → List Nat
  | 0, _ => []
  | depth + 1, i => i :: (f.offspring i).flatMap (f.subtree depth)

/-- The subtree of a position in preorder. No chain of positions is longer than their number. -/
def tree (f : Forest) (i : Nat) : List Nat :=
  f.subtree f.size i

/-- All positions in preorder. -/
def preorder (f : Forest) : List Nat :=
  f.roots.flatMap f.tree

/-- A forest in which positions can be ranked by their depth: the only cycles are positions that are
    their own parents. -/
structure Ranked (f : Forest) (rank : Nat → Nat) : Prop where
  whole : f.parents.length = f.size
  inside : ∀ {i p : Nat}, f.parent? i = some p → p < f.size
  lowers : ∀ {i p : Nat}, i ∈ f.offspring p → rank p < rank i
  bounded : ∀ {i : Nat}, i < f.size → rank i < f.size

/-- A forest without cycles is ranked by the number of ancestors. -/
theorem ranked_depth {f : Forest} (whole : f.parents.length = f.size)
    (inside : ∀ {i p : Nat}, f.parent? i = some p → p < f.size)
    (acyclic : ∀ i, ¬ TransGen (Link f.parent?) i i) : f.Ranked f.depth where
  whole := whole
  inside := inside
  lowers h := depth_lt_of_parent? acyclic (mem_offspring.mp h).1 (inside (mem_offspring.mp h).1)
  bounded {i} bound := by
    classical
    have subset : ((Finset.range f.size).filter fun j => TransGen (Link f.parent?) j i) ⊆
        (Finset.range f.size).erase i := by
      intro j hj
      rw [Finset.mem_filter] at hj
      rw [Finset.mem_erase]
      refine ⟨?_, hj.1⟩
      rintro rfl
      exact acyclic j hj.2
    have card := Finset.card_le_card subset
    rw [Finset.card_erase_of_mem (Finset.mem_range.mpr bound), Finset.card_range] at card
    unfold depth
    omega

theorem parent_unique {f : Forest} {i p q : Nat} (hp : i ∈ f.offspring p)
    (hq : i ∈ f.offspring q) : p = q :=
  Option.some.inj ((mem_offspring.mp hp).1.symm.trans (mem_offspring.mp hq).1)

theorem sublist_flatMap_of_head {α : Type} {g : α → List α} {xs : List α}
    (head : ∀ x ∈ xs, ∃ rest, g x = x :: rest) : xs.Sublist (xs.flatMap g) := by
  induction xs with
  | nil => exact List.Sublist.refl _
  | cons x xs ih =>
    obtain ⟨rest, eq⟩ := head x (by simp)
    rw [List.flatMap_cons, eq, List.cons_append]
    refine List.Sublist.cons_cons x ?_
    exact (ih fun y hy => head y (by simp [hy])).trans (List.sublist_append_right _ _)

namespace Ranked

variable {f : Forest} {rank : Nat → Nat} (h : f.Ranked rank)

include h

theorem lt_of_mem_offspring {i p : Nat} (mem : i ∈ f.offspring p) : i < f.size :=
  lt_size_of_parent? h.whole (mem_offspring.mp mem).1

/-- Cutting off below the deepest position cuts off nothing. -/
theorem subtree_congr (d : Nat) : ∀ {e i : Nat}, i < f.size → f.size ≤ rank i + d →
    f.size ≤ rank i + e → f.subtree d i = f.subtree e i := by
  induction d with
  | zero =>
    intro e i bound enough _
    exact absurd (h.bounded bound) (by omega)
  | succ d ih =>
    intro e i bound enough enough'
    cases e with
    | zero => exact absurd (h.bounded bound) (by omega)
    | succ e =>
      rw [subtree, subtree]
      congr 1
      refine List.flatMap_congr fun j hj => ?_
      have lower := h.lowers hj
      exact ih (h.lt_of_mem_offspring hj) (by omega) (by omega)

theorem tree_eq {i : Nat} (bound : i < f.size) :
    f.tree i = i :: (f.offspring i).flatMap f.tree := by
  obtain ⟨d, hd⟩ : ∃ d, f.size = d + 1 := ⟨f.size - 1, by omega⟩
  have unfolded : f.tree i = i :: (f.offspring i).flatMap (f.subtree d) := by
    rw [tree, hd, subtree]
  rw [unfolded]
  congr 1
  refine List.flatMap_congr fun j hj => ?_
  have lower := h.lowers hj
  exact h.subtree_congr d (h.lt_of_mem_offspring hj) (by omega) (by omega)

/-- Induction from the children of a position to the position. -/
theorem tree_induction {motive : Nat → Prop}
    (step : ∀ i, i < f.size → (∀ j ∈ f.offspring i, motive j) → motive i) {i : Nat}
    (bound : i < f.size) : motive i := by
  have all : ∀ k i, i < f.size → f.size ≤ rank i + k → motive i := by
    intro k
    induction k with
    | zero =>
      intro i bound enough
      exact absurd (h.bounded bound) (by omega)
    | succ k ih =>
      intro i bound enough
      refine step i bound fun j hj => ih j (h.lt_of_mem_offspring hj) ?_
      have lower := h.lowers hj
      omega
  exact all f.size i bound (by omega)

/-! ## Members of a subtree -/

theorem self_mem_tree {i : Nat} (bound : i < f.size) : i ∈ f.tree i := by
  rw [h.tree_eq bound]
  exact List.mem_cons_self

/-- A member of a subtree is its top or below a child of it. -/
theorem mem_tree {i x : Nat} (bound : i < f.size) :
    x ∈ f.tree i ↔ x = i ∨ ∃ j ∈ f.offspring i, x ∈ f.tree j := by
  rw [h.tree_eq bound, List.mem_cons, List.mem_flatMap]

/-- What a subtree consists of: positions at least as deep, each but the top with its parent, and
    with all its children. -/
theorem tree_spec {i : Nat} (bound : i < f.size) : ∀ x ∈ f.tree i,
    x < f.size ∧ rank i ≤ rank x ∧ (x = i ∨ ∃ p ∈ f.tree i, x ∈ f.offspring p) ∧
      (∀ y ∈ f.offspring x, y ∈ f.tree i) ∧ (f.tree x).Sublist (f.tree i) := by
  refine h.tree_induction (motive := fun i => ∀ x ∈ f.tree i, x < f.size ∧ rank i ≤ rank x ∧
    (x = i ∨ ∃ p ∈ f.tree i, x ∈ f.offspring p) ∧ (∀ y ∈ f.offspring x, y ∈ f.tree i) ∧
    (f.tree x).Sublist (f.tree i)) (fun i bound below x hx => ?_) bound
  have within : ∀ j ∈ f.offspring i, (f.tree j).Sublist (f.tree i) := by
    intro j hj
    rw [h.tree_eq bound]
    obtain ⟨front, back, split⟩ := List.append_of_mem hj
    rw [split, List.flatMap_append, List.flatMap_cons]
    exact ((List.sublist_append_left _ _).trans (List.sublist_append_right _ _)).cons _
  rcases (h.mem_tree bound).mp hx with rfl | ⟨j, hj, hx⟩
  · refine ⟨bound, Nat.le_refl _, Or.inl rfl, fun y hy => ?_, List.Sublist.refl _⟩
    exact (h.mem_tree bound).mpr (Or.inr ⟨y, hy, h.self_mem_tree (h.lt_of_mem_offspring hy)⟩)
  · obtain ⟨inside, deeper, parent, children, sub⟩ := below j hj x hx
    have lower := h.lowers hj
    refine ⟨inside, by omega, Or.inr ?_, fun y hy => (within j hj).subset (children y hy),
      sub.trans (within j hj)⟩
    rcases parent with rfl | ⟨p, hp, child⟩
    · exact ⟨i, h.self_mem_tree bound, hj⟩
    · exact ⟨p, (within j hj).subset hp, child⟩

/-- Subtrees that are not within each other have no position in common. -/
theorem disjoint_tree {i j : Nat} (hi : i < f.size) (hj : j < f.size) (ne : i ≠ j)
    (outside : ∀ p, i ∈ f.offspring p → p ∉ f.tree j)
    (outside' : ∀ p, j ∈ f.offspring p → p ∉ f.tree i) : ∀ x, x ∈ f.tree i → x ∉ f.tree j := by
  -- the parent of a common member other than the tops is common, too
  have common : ∀ k x, rank x < k → x ∈ f.tree i → x ∉ f.tree j := by
    intro k
    induction k with
    | zero => intro x less; omega
    | succ k ih =>
      intro x less here there
      obtain ⟨-, -, parent, -⟩ := h.tree_spec hi x here
      obtain ⟨-, -, parent', -⟩ := h.tree_spec hj x there
      rcases parent with rfl | ⟨p, hp, child⟩
      · rcases parent' with same | ⟨p, hp, child⟩
        · exact ne same
        · exact outside p child hp
      · rcases parent' with rfl | ⟨p', hp', child'⟩
        · exact outside' p child hp
        · obtain rfl := parent_unique child child'
          have lower := h.lowers child
          exact ih p (by omega) hp hp'
  exact fun x => common (rank x + 1) x (Nat.lt_succ_self _)

/-- The subtrees of siblings, or of roots, repeat no position. -/
theorem nodup_flatMap_tree {js : List Nat} (nodup : js.Nodup) (inside : ∀ j ∈ js, j < f.size)
    (each : ∀ j ∈ js, (f.tree j).Nodup)
    (outside : ∀ j ∈ js, ∀ p, j ∈ f.offspring p → ∀ k ∈ js, p ∉ f.tree k) :
    (js.flatMap f.tree).Nodup := by
  rw [List.nodup_flatMap]
  refine ⟨each, nodup.imp_of_mem fun {j k} hj hk ne => ?_⟩
  exact h.disjoint_tree (inside j hj) (inside k hk) ne (fun p hp => outside j hj p hp k hk)
    fun p hp => outside k hk p hp j hj

theorem outside_offspring {i : Nat} {j k p : Nat} (hj : j ∈ f.offspring i)
    (hp : j ∈ f.offspring p) (hk : k ∈ f.offspring i) : p ∉ f.tree k := by
  obtain rfl := parent_unique hj hp
  intro mem
  have deeper := (h.tree_spec (h.lt_of_mem_offspring hk) i mem).2.1
  have lower := h.lowers hk
  omega

theorem nodup_tree {i : Nat} (bound : i < f.size) : (f.tree i).Nodup := by
  refine h.tree_induction (motive := fun i => (f.tree i).Nodup) (fun i bound below => ?_) bound
  rw [h.tree_eq bound, List.nodup_cons]
  refine ⟨fun mem => ?_, h.nodup_flatMap_tree ?_ (fun j hj => h.lt_of_mem_offspring hj) below
    fun j hj p hp k hk => h.outside_offspring hj hp hk⟩
  · obtain ⟨j, hj, mem⟩ := List.mem_flatMap.mp mem
    have deeper := (h.tree_spec (h.lt_of_mem_offspring hj) i mem).2.1
    have lower := h.lowers hj
    omega
  · exact nodup_bySortOrder ((nodup_children i).filter _)

/-! ## Members of the preorder -/

omit h in
theorem notMem_offspring_of_root {r p : Nat} (root : r ∈ f.roots) : r ∉ f.offspring p := by
  intro mem
  obtain ⟨parent, ne⟩ := mem_offspring.mp mem
  rcases (mem_roots.mp root).2 with none | self
  · rw [none] at parent
    cases parent
  · exact ne (Option.some.inj (self.symm.trans parent))

theorem nodup_preorder : f.preorder.Nodup :=
  h.nodup_flatMap_tree (nodup_bySortOrder (List.nodup_range.filter _))
    (fun _ hr => (mem_roots.mp hr).1) (fun _ hr => h.nodup_tree (mem_roots.mp hr).1)
    fun _ hr _ hp => absurd hp (notMem_offspring_of_root hr)

theorem mem_preorder {i : Nat} : i ∈ f.preorder ↔ i < f.size := by
  rw [preorder, List.mem_flatMap]
  constructor
  · rintro ⟨r, hr, mem⟩
    exact (h.tree_spec (mem_roots.mp hr).1 i mem).1
  · -- climb to the parent, which has a lower rank
    have climb : ∀ k i, rank i < k → i < f.size → ∃ r ∈ f.roots, i ∈ f.tree r := by
      intro k
      induction k with
      | zero => intro i less; omega
      | succ k ih =>
        intro i less bound
        by_cases root : i ∈ f.roots
        · exact ⟨i, root, h.self_mem_tree bound⟩
        · rw [mem_roots, not_and_or, not_or] at root
          obtain ⟨some, other⟩ := root.resolve_left (not_not_intro bound)
          obtain ⟨p, hp⟩ := Option.ne_none_iff_exists'.mp some
          have child : i ∈ f.offspring p := by
            refine mem_offspring.mpr ⟨hp, ?_⟩
            rintro rfl
            exact other hp
          have lower := h.lowers child
          obtain ⟨r, hr, mem⟩ := ih p (by omega) (h.inside hp)
          exact ⟨r, hr, (h.tree_spec (mem_roots.mp hr).1 p mem).2.2.2.1 i child⟩
    exact fun bound => climb (rank i + 1) i (Nat.lt_succ_self _) bound

theorem tree_sublist_preorder {i : Nat} (bound : i < f.size) :
    (f.tree i).Sublist f.preorder := by
  obtain ⟨r, hr, mem⟩ := List.mem_flatMap.mp (h.mem_preorder.mpr bound)
  refine (h.tree_spec (mem_roots.mp hr).1 i mem).2.2.2.2.trans ?_
  obtain ⟨front, back, split⟩ := List.append_of_mem hr
  rw [preorder, split, List.flatMap_append, List.flatMap_cons]
  exact (List.sublist_append_left _ _).trans (List.sublist_append_right _ _)

/-! ## The walk -/

omit h in
/-- A walk over positions that have been visited visits nothing. -/
theorem walk_of_visited (steps : Nat) : ∀ {stack order : List Nat}, (∀ i ∈ stack, i ∈ order) →
    f.walk steps stack order = order := by
  induction steps with
  | zero => intro stack order _; rfl
  | succ steps ih =>
    intro stack order seen
    cases stack with
    | nil => rfl
    | cons i stack =>
      rw [walk, if_pos (seen i (by simp))]
      exact ih fun j hj => seen j (by simp [hj])

omit h in
/-- A walk over several subtrees, if it visits each of them. -/
theorem walk_forest {js : List Nat} (each : ∀ j ∈ js, ∀ (steps : Nat) (stack order : List Nat),
      (∀ x ∈ f.tree j, x ∉ order) →
      f.walk (steps + (f.tree j).length) (j :: stack) order =
        f.walk steps stack (order ++ f.tree j)) :
    (js.flatMap f.tree).Nodup → ∀ (steps : Nat) (stack order : List Nat),
      (∀ x ∈ js.flatMap f.tree, x ∉ order) →
      f.walk (steps + (js.flatMap f.tree).length) (js ++ stack) order =
        f.walk steps stack (order ++ js.flatMap f.tree) := by
  induction js with
  | nil => intro _ steps stack order _; simp
  | cons j js ih =>
    intro nodup steps stack order fresh
    rw [List.flatMap_cons] at nodup fresh ⊢
    obtain ⟨-, nodup', apart⟩ := List.nodup_append'.mp nodup
    rw [List.length_append, Nat.add_comm (f.tree j).length, ← Nat.add_assoc, List.cons_append,
      each j (by simp) _ _ _ fun x hx => fresh x (List.mem_append_left _ hx),
      ih (fun k hk => each k (by simp [hk])) nodup', List.append_assoc]
    intro x hx mem
    rcases List.mem_append.mp mem with mem | mem
    · exact fresh x (List.mem_append_right _ hx) mem
    · exact apart mem hx

/-- A walk takes a position off its stack and visits the subtree there. -/
theorem walk_tree {i : Nat} (bound : i < f.size) : ∀ (steps : Nat) (stack order : List Nat),
    (∀ x ∈ f.tree i, x ∉ order) →
    f.walk (steps + (f.tree i).length) (i :: stack) order =
      f.walk steps stack (order ++ f.tree i) := by
  refine h.tree_induction (motive := fun i => ∀ (steps : Nat) (stack order : List Nat),
    (∀ x ∈ f.tree i, x ∉ order) → f.walk (steps + (f.tree i).length) (i :: stack) order =
      f.walk steps stack (order ++ f.tree i)) (fun i bound below steps stack order fresh => ?_) bound
  have nodup := h.nodup_tree bound
  rw [h.tree_eq bound] at nodup fresh ⊢
  rw [List.nodup_cons] at nodup
  rw [List.length_cons, ← Nat.add_assoc, walk, if_neg (fresh i (by simp)),
    walk_forest below nodup.2, List.append_assoc]
  · rfl
  · intro x hx mem
    rcases List.mem_append.mp mem with mem | mem
    · exact fresh x (by simp [hx]) mem
    · rw [List.mem_singleton.mp mem] at hx
      exact nodup.1 hx

/-- An export visits the positions in preorder. -/
theorem exportOrder_eq_preorder : f.exportOrder = f.preorder := by
  have nodup := h.nodup_preorder
  have length : f.preorder.length ≤ f.size := by
    have subset : f.preorder ⊆ List.range f.size := fun i hi =>
      List.mem_range.mpr (h.mem_preorder.mp hi)
    simpa using (List.subperm_of_subset nodup subset).length_le
  obtain ⟨steps, enough⟩ : ∃ steps, 2 * f.size = steps + f.preorder.length :=
    ⟨2 * f.size - f.preorder.length, by omega⟩
  rw [exportOrder, enough, preorder, walk_forest (fun r hr => h.walk_tree (mem_roots.mp hr).1) nodup
    _ _ _ (by simp), List.nil_append]
  exact walk_of_visited _ fun i hi => h.mem_preorder.mpr (List.mem_range.mp hi)

/-! ## Siblings -/

/-- The children of a position stand in an export in the order in which they are sorted. -/
theorem offspring_sublist {i : Nat} (bound : i < f.size) :
    (f.offspring i).Sublist f.exportOrder := by
  rw [h.exportOrder_eq_preorder]
  refine List.Sublist.trans ?_ (h.tree_sublist_preorder bound)
  rw [h.tree_eq bound]
  exact (sublist_flatMap_of_head fun j hj => ⟨_, h.tree_eq (h.lt_of_mem_offspring hj)⟩).cons i

/-- The roots stand in an export in the order in which they are sorted. -/
theorem roots_sublist : f.roots.Sublist f.exportOrder := by
  rw [h.exportOrder_eq_preorder]
  exact sublist_flatMap_of_head fun r hr => ⟨_, h.tree_eq (mem_roots.mp hr).1⟩

end Ranked

end Rollup.Forest

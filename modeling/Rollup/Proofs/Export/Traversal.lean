import Mathlib.Data.Finset.Card
import Mathlib.Data.List.Basic
import Mathlib.Data.List.Nodup
import Mathlib.Logic.Relation
import Rollup.Proofs.Export.Mirror
import Rollup.Proofs.Export.Preorder
import Rollup.Proofs.Sort

/-!
# Every forest is traversed completely

The walk of an export ends by itself on every list of nodes, also where parents are missing, repeat
or form cycles. Where the only cycles are nodes that are their own parents, its order is the
preorder that one would write down recursively.

Results:

* `walk_add`: the bound on the steps of the walk never cuts it short.
* `ranked_level`: forests whose only cycles are single positions can be ranked.
* `IsPreorder`: the recursive preorder, with siblings by sort order and position.
* `isPreorder_exportOrder`: the order of an export is that.
-/

namespace Rollup.Forest

open Ancestry Relation

variable {f : Forest}

/-! ## The walk ends by itself -/

/-- Further steps change nothing once a walk has had enough. -/
theorem walk_add (whole : f.parents.length = f.size) (extra steps : Nat) :
    ∀ stack order : List Nat, (∀ i ∈ stack, i < f.size) →
      stack.length + f.pending order ≤ steps →
      f.walk (steps + extra) stack order = f.walk steps stack order := by
  induction steps with
  | zero =>
    intro stack order _ enough
    have empty : stack = [] := List.length_eq_zero_iff.mp (by omega)
    subst empty
    cases extra <;> rfl
  | succ steps ih =>
    intro stack order stacked enough
    cases stack with
    | nil => rw [Nat.add_right_comm]; rfl
    | cons i stack =>
      have rest : ∀ j ∈ stack, j < f.size := fun j hj => stacked j (List.mem_cons_of_mem i hj)
      rw [List.length_cons] at enough
      rw [Nat.add_right_comm, walk, walk]
      split
      · exact ih stack order rest (by omega)
      · rename_i new
        have visit := pending_visit (stacked i List.mem_cons_self) new
        refine ih (f.offspring i ++ stack) (order ++ [i]) (fun j hj => ?_) ?_
        · rcases List.mem_append.mp hj with hj | hj
          · exact lt_size_of_parent? whole (mem_offspring.mp hj).1
          · exact rest j hj
        · rw [List.length_append]
          omega

/-- The walk of an export is not cut short by the bound on its steps. -/
theorem walk_exportOrder (whole : f.parents.length = f.size) (extra : Nat) :
    f.walk (2 * f.size + extra) (f.roots ++ List.range f.size) [] = f.exportOrder := by
  have bound := length_roots_add_pending whole
  refine walk_add whole extra _ _ _ (fun i hi => ?_) ?_
  · rcases List.mem_append.mp hi with hi | hi
    · exact (mem_roots.mp hi).1
    · exact List.mem_range.mp hi
  · rw [List.length_append, List.length_range]
    omega

/-! ## Forests without longer cycles -/

/-- The only cycles of parent links are positions that are their own parents. -/
def OnlySelfParents (f : Forest) : Prop :=
  ∀ i, TransGen (Link f.parent?) i i → f.parent? i = some i

/-- Links from higher to lower ranks, but for those of positions to themselves, form no other
    cycles. -/
theorem onlySelfParents_of_rank (rank : Nat → Nat)
    (lowers : ∀ i p, f.parent? i = some p → p = i ∨ rank p < rank i) : f.OnlySelfParents := by
  have step : ∀ a b, Link f.parent? a b → rank a ≤ rank b := by
    intro a b link
    rcases lowers b a link with rfl | lower
    · exact Nat.le_refl _
    · exact Nat.le_of_lt lower
  intro i cycle
  obtain ⟨p, above, link⟩ := TransGen.tail'_iff.mp cycle
  have link : f.parent? i = some p := link
  rcases lowers i p link with rfl | lower
  · exact link
  · have upward := ReflTransGen.lift rank step i p above
    rw [reflTransGen_eq_self] at upward
    exact absurd upward (by omega)

open Classical in
/-- The number of other positions above a position. -/
noncomputable def level (f : Forest) (i : Nat) : Nat :=
  ((Finset.range f.size).filter fun j => j ≠ i ∧ TransGen (Link f.parent?) j i).card

theorem level_lt_of_offspring (only : f.OnlySelfParents)
    (inside : ∀ {i p : Nat}, f.parent? i = some p → p < f.size) {i p : Nat}
    (child : i ∈ f.offspring p) : f.level p < f.level i := by
  classical
  obtain ⟨parent, apart⟩ := mem_offspring.mp child
  have link : Link f.parent? p i := parent
  -- a position below its own child would close a cycle of two or more
  have away : ¬ TransGen (Link f.parent?) i p := by
    intro above
    have self := only i (above.tail link)
    exact apart (Option.some.inj (self.symm.trans parent))
  unfold level
  refine Finset.card_lt_card (Finset.ssubset_iff_of_subset ?_ |>.mpr ⟨p, ?_, ?_⟩)
  · intro j hj
    obtain ⟨bound, -, above⟩ := Finset.mem_filter.mp hj
    refine Finset.mem_filter.mpr ⟨bound, ?_, above.tail link⟩
    rintro rfl
    exact away above
  · exact Finset.mem_filter.mpr
      ⟨Finset.mem_range.mpr (inside parent), fun same => apart same.symm, .single link⟩
  · intro mem
    exact (Finset.mem_filter.mp mem).2.1 rfl

/-- A forest whose only cycles are single positions is ranked by the number of positions above. -/
theorem ranked_level (whole : f.parents.length = f.size)
    (inside : ∀ {i p : Nat}, f.parent? i = some p → p < f.size) (only : f.OnlySelfParents) :
    f.Ranked f.level where
  whole := whole
  inside := inside
  lowers child := level_lt_of_offspring only inside child
  bounded {i} bound := by
    classical
    have subset : ((Finset.range f.size).filter fun j => j ≠ i ∧ TransGen (Link f.parent?) j i) ⊆
        (Finset.range f.size).erase i := by
      intro j hj
      obtain ⟨range, ne, -⟩ := Finset.mem_filter.mp hj
      exact Finset.mem_erase.mpr ⟨ne, range⟩
    have card := Finset.card_le_card subset
    rw [Finset.card_erase_of_mem (Finset.mem_range.mpr bound), Finset.card_range] at card
    unfold level
    omega

/-! ## The order of siblings -/

/-- Siblings stand by the sort order of their nodes, and those with the same one by position. -/
def Precedes (f : Forest) (i j : Nat) : Prop :=
  f.sortKey i < f.sortKey j ∨ f.sortKey i = f.sortKey j ∧ i < j

theorem precedes_bySortOrder {positions : List Nat} (ascending : positions.Pairwise (· < ·)) :
    (f.bySortOrder positions).Pairwise f.Precedes := by
  have stable : (f.bySortOrder positions).Pairwise fun i j =>
      f.sortKey i ≤ f.sortKey j ∧ (f.sortKey i = f.sortKey j → i < j) :=
    stable_stableSort_key f.sortKey ascending
  exact stable.imp fun h => (lt_or_eq_of_le h.1).imp_right fun same => ⟨same, h.2 same⟩

theorem precedes_roots (f : Forest) : f.roots.Pairwise f.Precedes :=
  precedes_bySortOrder (List.pairwise_lt_range.filter _)

theorem precedes_offspring (f : Forest) (i : Nat) : (f.offspring i).Pairwise f.Precedes := by
  refine precedes_bySortOrder (List.Pairwise.filter _ ?_)
  rw [children_eq_filter]
  exact List.pairwise_lt_range.filter _

/-! ## The recursive preorder -/

/-- `order` is the recursive preorder of a forest with the given roots, children and subtrees: the
    subtrees of the roots one after the other, each a position followed by the subtrees of its
    children. Roots are the positions without a parent in the list and those that are their own;
    siblings stand by sort order and position; the subtree of a position holds what is below it,
    and stands in one piece. -/
structure IsPreorder (f : Forest) (order roots : List Nat) (children tree : Nat → List Nat) :
    Prop where
  order_eq : order = roots.flatMap tree
  tree_eq : ∀ i < f.size, tree i = i :: (children i).flatMap tree
  root : ∀ i, i ∈ roots ↔ i < f.size ∧ (f.parent? i = none ∨ f.parent? i = some i)
  child : ∀ i j, j ∈ children i ↔ f.parent? j = some i ∧ j ≠ i
  sortedRoots : roots.Pairwise f.Precedes
  sortedChildren : ∀ i, (children i).Pairwise f.Precedes
  below : ∀ i < f.size, ∀ j, j ∈ tree i ↔ ReflTransGen (Link f.parent?) i j
  contiguous : ∀ i < f.size, tree i <:+: order

namespace Ranked

variable {rank : Nat → Nat} (h : f.Ranked rank)

include h

/-- The subtree of a position holds what is below it. -/
theorem mem_tree_iff {i j : Nat} (bound : i < f.size) :
    j ∈ f.tree i ↔ ReflTransGen (Link f.parent?) i j := by
  constructor
  · refine h.tree_induction (motive := fun i => j ∈ f.tree i → ReflTransGen (Link f.parent?) i j)
      (fun i bound below mem => ?_) bound
    rcases (h.mem_tree bound).mp mem with rfl | ⟨k, hk, mem⟩
    · exact .refl
    · exact .head (mem_offspring.mp hk).1 (below k hk mem)
  · intro below
    induction below with
    | refl => exact h.self_mem_tree bound
    | @tail k j _ link ih =>
      by_cases same : j = k
      · exact same ▸ ih
      · exact (h.tree_spec bound k ih).2.2.2.1 j (mem_offspring.mpr ⟨link, same⟩)

/-- A subtree within a subtree stands in one piece. -/
theorem tree_infix_tree {i : Nat} (bound : i < f.size) :
    ∀ j ∈ f.tree i, f.tree j <:+: f.tree i := by
  refine h.tree_induction (motive := fun i => ∀ j ∈ f.tree i, f.tree j <:+: f.tree i)
    (fun i bound below j mem => ?_) bound
  rcases (h.mem_tree bound).mp mem with rfl | ⟨k, hk, mem⟩
  · exact List.infix_rfl
  · have inner : f.tree k <:+: (f.offspring i).flatMap f.tree :=
      List.infix_of_mem_flatten (List.mem_map_of_mem hk)
    rw [h.tree_eq bound]
    exact (below k hk j mem).trans (inner.trans (List.suffix_cons _ _).isInfix)

theorem tree_infix_preorder {i : Nat} (bound : i < f.size) : f.tree i <:+: f.preorder := by
  obtain ⟨r, root, mem⟩ := List.mem_flatMap.mp (h.mem_preorder.mpr bound)
  refine (h.tree_infix_tree (mem_roots.mp root).1 i mem).trans ?_
  exact List.infix_of_mem_flatten (List.mem_map_of_mem root)

end Ranked

/-- Without longer cycles an export visits the positions in preorder. -/
theorem isPreorder_exportOrder (whole : f.parents.length = f.size)
    (inside : ∀ {i p : Nat}, f.parent? i = some p → p < f.size) (only : f.OnlySelfParents) :
    f.IsPreorder f.exportOrder f.roots f.offspring f.tree := by
  have ranked := ranked_level whole inside only
  have order := ranked.exportOrder_eq_preorder
  constructor
  · exact order
  · exact fun i bound => ranked.tree_eq bound
  · exact fun i => mem_roots
  · exact fun i j => mem_offspring
  · exact precedes_roots f
  · exact precedes_offspring f
  · exact fun i bound j => ranked.mem_tree_iff bound
  · intro i bound
    rw [order]
    exact ranked.tree_infix_preorder bound

end Rollup.Forest

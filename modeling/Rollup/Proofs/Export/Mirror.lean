import Mathlib.Data.List.Basic
import Mathlib.Data.List.Nodup
import Rollup.Proofs.Export.Preorder
import Rollup.Proofs.Sort

/-!
# Forests in the order of an export

A forest whose nodes stand in the order in which another forest is exported is exported in the order
in which they stand, and has the same lineages.

Results:

* `exportOrder_of_mirrors`: the order of its export.
* `lineage_of_mirrors`, `any_children_of_mirrors`: its lineages, and which positions have children.
-/

namespace Rollup

/-- The members of a sublist, picked from a list without repeats. -/
theorem filter_mem_of_sublist {α : Type} [DecidableEq α] {xs ys : List α} (sub : xs.Sublist ys)
    (nodup : ys.Nodup) : ys.filter (· ∈ xs) = xs := by
  induction sub with
  | slnil => rfl
  | cons y sub ih =>
    rw [List.nodup_cons] at nodup
    have absent := fun mem => nodup.1 (sub.subset mem)
    rw [List.filter_cons_of_neg (by simpa using absent), ih nodup.2]
  | cons_cons y sub ih =>
    rw [List.nodup_cons] at nodup
    rw [List.filter_cons_of_pos (by simp)]
    congr 1
    rw [← ih nodup.2]
    refine List.filter_congr fun x hx => ?_
    have apart : x ≠ y := by
      rintro rfl
      exact nodup.1 hx
    simp [apart, hx]

namespace Forest

/-- The sort order of the node at a position. -/
def sortKey (f : Forest) (i : Nat) : Int :=
  ((f.nodes[i]?).map (·.sortOrder)).getD 0

theorem pairwise_bySortOrder (f : Forest) (positions : List Nat) :
    (f.bySortOrder positions).Pairwise fun i j => f.sortKey i ≤ f.sortKey j :=
  pairwise_stableSort_key f.sortKey positions

theorem bySortOrder_of_sorted {f : Forest} {positions : List Nat}
    (sorted : positions.Pairwise fun i j => f.sortKey i ≤ f.sortKey j) :
    f.bySortOrder positions = positions :=
  stableSort_of_sorted (sorted.imp fun h => decide_eq_true h)

theorem children_eq_filter (f : Forest) (i : Nat) :
    f.children i = (List.range f.parents.length).filter (f.parent? · = some i) := by
  have parents : f.parents.zipIdx = (List.range f.parents.length).map fun j => (f.parent? j, j) := by
    refine List.ext_getElem (by simp) fun j hj _ => ?_
    rw [List.length_zipIdx] at hj
    simp [parent?, hj]
  rw [children, parents, List.filter_map, List.map_map]
  refine (List.map_id' _).trans (List.filter_congr fun j _ => ?_)
  rw [Bool.eq_iff_iff, Function.comp_apply, beq_iff_eq, decide_eq_true_eq]

/-- The position that an export visits as the `k`th. -/
def nth (f : Forest) (k : Nat) : Nat :=
  (f.exportOrder[k]?).getD 0

/-- The nodes of `g` are those of `f` in the order in which `f` is exported. -/
structure Mirrors (f g : Forest) : Prop where
  size : g.size = f.size
  whole : g.parents.length = g.size
  inside : ∀ {k p : Nat}, g.parent? k = some p → p < g.size
  parent : ∀ {k : Nat}, k < g.size → (g.parent? k).map f.nth = f.parent? (f.nth k)
  sortKey : ∀ {k : Nat}, k < g.size → g.sortKey k = f.sortKey (f.nth k)

section Mirrors

variable {f g : Forest} {rank : Nat → Nat} (h : f.Ranked rank) (m : Mirrors f g)

section Order

include m

theorem root_of_mirrors {k : Nat} (hk : k < g.size) :
    g.parent? k = none ↔ f.parent? (f.nth k) = none := by
  rw [← m.parent hk, Option.map_eq_none_iff]

/-- Positions that stand as the other forest sorts them are sorted. -/
theorem bySortOrder_of_mirrors {ks is : List Nat} (inside : ∀ k ∈ ks, k < g.size)
    (same : ks.map f.nth = is) (sorted : is.Pairwise fun i j => f.sortKey i ≤ f.sortKey j) :
    g.bySortOrder ks = ks := by
  refine bySortOrder_of_sorted ?_
  rw [← same, List.pairwise_map] at sorted
  refine sorted.imp_of_mem fun {j k} hj hk le => ?_
  rw [m.sortKey (inside j hj), m.sortKey (inside k hk)]
  exact le

end Order

include h

theorem length_exportOrder : f.exportOrder.length = f.size := by
  simpa using (perm_exportOrder h.whole).length_eq

theorem getElem?_exportOrder {k : Nat} (bound : k < f.size) :
    f.exportOrder[k]? = some (f.nth k) := by
  rw [← length_exportOrder h] at bound
  rw [nth, List.getElem?_eq_getElem bound, Option.getD_some]

theorem map_nth_range : (List.range f.size).map f.nth = f.exportOrder := by
  refine List.ext_getElem? fun k => ?_
  rw [List.getElem?_map]
  by_cases bound : k < f.size
  · rw [List.getElem?_range bound, Option.map_some, getElem?_exportOrder h bound]
  · rw [List.getElem?_eq_none (by simpa using bound),
      List.getElem?_eq_none (by rw [length_exportOrder h]; omega), Option.map_none]

theorem nth_lt {k : Nat} (bound : k < f.size) : f.nth k < f.size :=
  List.mem_range.mp ((perm_exportOrder h.whole).mem_iff.mp
    (List.mem_of_getElem? (getElem?_exportOrder h bound)))

theorem nth_inj {j k : Nat} (hj : j < f.size) (hk : k < f.size) (same : f.nth j = f.nth k) :
    j = k := by
  have nodup := (perm_exportOrder h.whole).nodup_iff.mpr List.nodup_range
  refine (List.getElem?_inj (by rw [length_exportOrder h]; exact hj) nodup).mp ?_
  rw [getElem?_exportOrder h hj, getElem?_exportOrder h hk, same]

include m

theorem parent?_of_mirrors {j k : Nat} (hj : j < g.size) (hk : k < g.size) :
    g.parent? j = some k ↔ f.parent? (f.nth j) = some (f.nth k) := by
  rw [← m.parent hj, Option.map_eq_some_iff]
  constructor
  · exact fun link => ⟨k, link, rfl⟩
  · rintro ⟨p, link, same⟩
    rw [link, nth_inj h (m.size ▸ m.inside link) (m.size ▸ hk) same]

/-- The children of a position, as the export of the other forest visits them. -/
theorem map_children {k : Nat} (hk : k < g.size) :
    (g.children k).map f.nth = f.exportOrder.filter (f.parent? · = some (f.nth k)) := by
  rw [children_eq_filter, m.whole, m.size, ← map_nth_range h, List.filter_map]
  congr 1
  refine List.filter_congr fun j hj => ?_
  have hj : j < g.size := m.size ▸ List.mem_range.mp hj
  simp [parent?_of_mirrors h m hj hk]

theorem mem_offspring_of_mirrors {j k : Nat} (mem : j ∈ g.offspring k) :
    f.nth j ∈ f.offspring (f.nth k) := by
  obtain ⟨link, ne⟩ := mem_offspring.mp mem
  have hj := lt_size_of_parent? m.whole link
  have hk := m.inside link
  refine mem_offspring.mpr ⟨(parent?_of_mirrors h m hj hk).mp link, fun same => ne ?_⟩
  exact nth_inj h (m.size ▸ hj) (m.size ▸ hk) same

theorem ranked_of_mirrors : g.Ranked fun k => rank (f.nth k) where
  whole := m.whole
  inside := m.inside
  lowers mem := h.lowers (mem_offspring_of_mirrors h m mem)
  bounded bound := m.size ▸ h.bounded (nth_lt h (m.size ▸ bound))

theorem map_offspring {k : Nat} (hk : k < g.size) :
    (g.offspring k).map f.nth = f.offspring (f.nth k) := by
  have bound := nth_lt h (m.size ▸ hk)
  have nodup := (perm_exportOrder h.whole).nodup_iff.mpr List.nodup_range
  have inside : ∀ j ∈ g.children k, j < g.size := fun j hj =>
    lt_size_of_parent? m.whole (mem_children.mp hj)
  have same : ((g.children k).filter (· ≠ k)).map f.nth = f.offspring (f.nth k) := by
    have picked : ((g.children k).filter (· ≠ k)).map f.nth =
        ((g.children k).map f.nth).filter (· ≠ f.nth k) := by
      rw [List.filter_map]
      congr 1
      refine List.filter_congr fun j hj => ?_
      have inj : f.nth j = f.nth k ↔ j = k :=
        ⟨nth_inj h (m.size ▸ inside j hj) (m.size ▸ hk), fun e => e ▸ rfl⟩
      simp [inj]
    rw [picked, map_children h m hk, List.filter_filter,
      ← filter_mem_of_sublist (h.offspring_sublist bound) nodup]
    refine List.filter_congr fun i _ => ?_
    rw [Bool.eq_iff_iff]
    simp [mem_offspring, and_comm]
  rw [offspring, bySortOrder_of_mirrors m (fun j hj => inside j (List.mem_of_mem_filter hj)) same
    (pairwise_bySortOrder f _), same]

theorem map_roots : g.roots.map f.nth = f.roots := by
  have nodup := (perm_exportOrder h.whole).nodup_iff.mpr List.nodup_range
  have roots : g.roots = g.bySortOrder ((List.range g.size).filter fun i =>
      g.parent? i = none ∨ g.parent? i = some i) := by
    rw [Forest.roots]
    congr 1
    refine List.filter_congr fun i _ => ?_
    cases g.parent? i <;> simp
  have same : ((List.range g.size).filter fun i =>
      g.parent? i = none ∨ g.parent? i = some i).map f.nth = f.roots := by
    rw [← filter_mem_of_sublist h.roots_sublist nodup, ← map_nth_range h, List.filter_map, m.size]
    congr 1
    refine List.filter_congr fun i hi => ?_
    have hi := List.mem_range.mp hi
    have hi' : i < g.size := m.size ▸ hi
    rw [Bool.eq_iff_iff, Function.comp_apply, decide_eq_true_eq, decide_eq_true_eq, mem_roots,
      root_of_mirrors m hi', parent?_of_mirrors h m hi' hi']
    exact ⟨fun root => ⟨nth_lt h hi, root⟩, fun root => root.2⟩
  rw [roots, bySortOrder_of_mirrors m (fun i hi => by simpa using (List.mem_filter.mp hi).1) same
    (pairwise_bySortOrder f _), same]

theorem map_subtree (d : Nat) : ∀ {k : Nat}, k < g.size →
    (g.subtree d k).map f.nth = f.subtree d (f.nth k) := by
  induction d with
  | zero => intro k _; rfl
  | succ d ih =>
    intro k hk
    rw [subtree, subtree, List.map_cons, List.map_flatMap, ← map_offspring h m hk,
      List.flatMap_map]
    congr 1
    refine List.flatMap_congr fun j hj => ?_
    exact ih ((ranked_of_mirrors h m).lt_of_mem_offspring hj)

/-- A forest that stands in the order of an export is exported as it stands. -/
theorem exportOrder_of_mirrors : g.exportOrder = List.range g.size := by
  have ranked := ranked_of_mirrors h m
  have visited : g.exportOrder.map f.nth = (List.range g.size).map f.nth := by
    rw [m.size, map_nth_range h, ranked.exportOrder_eq_preorder, h.exportOrder_eq_preorder,
      preorder, preorder, List.map_flatMap, ← map_roots h m, List.flatMap_map]
    refine List.flatMap_congr fun r hr => ?_
    rw [tree, tree, m.size]
    exact map_subtree h m _ (mem_roots.mp hr).1
  have inj : ∀ j ∈ g.exportOrder, ∀ k ∈ List.range g.size, f.nth j = f.nth k → j = k := by
    intro j hj k hk same
    have hj := List.mem_range.mp ((perm_exportOrder m.whole).mem_iff.mp hj)
    exact nth_inj h (m.size ▸ hj) (m.size ▸ List.mem_range.mp hk) same
  refine List.ext_getElem (by simpa using congrArg List.length visited) fun k hk hk' => ?_
  refine inj _ (List.getElem_mem hk) _ (List.getElem_mem hk') ?_
  have same := List.getElem_of_eq visited (i := k) (by rwa [List.length_map])
  rwa [List.getElem_map, List.getElem_map] at same

/-! ## Lineages -/

theorem map_climb (steps : Nat) : ∀ {chain : List Nat}, (∀ k ∈ chain, k < g.size) →
    (g.climb steps chain).map f.nth = f.climb steps (chain.map f.nth) := by
  induction steps with
  | zero => exact fun _ => rfl
  | succ steps ih =>
    intro chain inside
    rw [climb, climb]
    cases chain with
    | nil => rfl
    | cons k chain =>
      have hk := inside k (by simp)
      rw [List.map_cons, List.head?_cons, List.head?_cons, Option.bind_some, Option.bind_some,
        ← m.parent hk]
      cases link : g.parent? k with
      | none => rfl
      | some p =>
        have hp := m.inside link
        have mem : f.nth p ∈ f.nth k :: chain.map f.nth ↔ p ∈ k :: chain := by
          rw [← List.map_cons, List.mem_map]
          constructor
          · rintro ⟨j, hj, same⟩
            rwa [← nth_inj h (m.size ▸ inside j hj) (m.size ▸ hp) same]
          · exact fun mem => ⟨p, mem, rfl⟩
        rw [Option.map_some]
        dsimp only
        by_cases seen : p ∈ k :: chain
        · rw [if_pos seen, if_pos (mem.mpr seen)]
          rfl
        · rw [if_neg seen, if_neg (mt mem.mp seen)]
          refine ih fun j hj => ?_
          rcases List.mem_cons.mp hj with rfl | hj
          · exact hp
          · exact inside j hj

/-- The lineages are the same. -/
theorem lineage_of_mirrors {k : Nat} (hk : k < g.size) :
    (g.lineage k).map f.nth = f.lineage (f.nth k) := by
  rw [lineage, lineage, m.size]
  exact map_climb h m f.size (by simpa using hk)

theorem any_children_of_mirrors {k : Nat} (hk : k < g.size) :
    (g.children k).any (· ≠ k) = (f.children (f.nth k)).any (· ≠ f.nth k) := by
  have nonempty : ∀ (e : Forest) (i : Nat),
      (e.children i).any (· ≠ i) = !(e.offspring i).isEmpty := by
    intro e i
    rw [Bool.eq_iff_iff, List.any_eq_true, Bool.not_eq_true', List.isEmpty_eq_false_iff_exists_mem]
    simp [mem_offspring, mem_children]
  rw [nonempty, nonempty, ← map_offspring h m hk, List.isEmpty_map]

end Mirrors

end Forest

end Rollup

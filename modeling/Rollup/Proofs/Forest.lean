import Mathlib.Data.Finset.Card
import Mathlib.Data.List.Nodup
import Mathlib.Logic.Relation
import Rollup.Forest
import Rollup.Proofs.Ancestry
import Rollup.Proofs.Dict

/-!
# Forests of nodes

The links between the positions of a forest are the links between the nodes there.

Results:

* `link_ofNodes`, `parent?_of_link`: links of positions and of nodes.
* `acyclic_ofNodes`: if no node is its own ancestor, no position is.
* `isChain_lineage`: every member of a lineage is the parent of the next.
* `depth_lt_of_parent?`: without cycles a parent has fewer ancestors than its children.
-/

namespace Rollup.Forest

open Ancestry Relation

/-! ## Positions -/

theorem position?_eq_some {nodes : List Node} {id : String} {i : Nat}
    (h : position? nodes id = some i) : ∃ n, nodes[i]? = some n ∧ n.id = id := by
  obtain ⟨q, hq, rfl⟩ := Option.map_eq_some_iff.mp h
  have mem := List.mem_reverse.mp (List.mem_of_find?_eq_some hq)
  exact ⟨q.1, List.mem_zipIdx_iff_getElem?.mp mem, by simpa using List.find?_some hq⟩

/-- Where storage ids are distinct, an id leads to the position of its node. -/
theorem position?_of_getElem? {nodes : List Node} (ids : (nodes.map (·.id)).Nodup) {i : Nat}
    {n : Node} (here : nodes[i]? = some n) : position? nodes n.id = some i := by
  have found : (nodes.zipIdx.reverse.find? (·.1.id == n.id)).isSome = true := by
    rw [List.find?_isSome]
    exact ⟨(n, i), List.mem_reverse.mpr (List.mem_zipIdx_iff_getElem?.mpr here), by simp⟩
  obtain ⟨q, hq⟩ := Option.isSome_iff_exists.mp found
  have same : position? nodes n.id = some q.2 := by rw [position?, hq, Option.map_some]
  obtain ⟨m, there, hm⟩ := position?_eq_some same
  rw [same, index_of_nodup_map ids there here hm]

/-! ## Links -/

/-- A link between positions is one between the nodes there. -/
theorem link_ofNodes {nodes : List Node} {i p : Nat} (h : (ofNodes nodes).parent? i = some p) :
    ∃ n m, nodes[i]? = some n ∧ nodes[p]? = some m ∧ n.parentId = some m.id := by
  unfold parent? ofNodes at h
  rw [List.getElem?_map] at h
  cases hn : nodes[i]? with
  | none => rw [hn] at h; cases h
  | some n =>
    rw [hn, Option.map_some, Option.join_some] at h
    obtain ⟨id, hid, hp⟩ := Option.bind_eq_some_iff.mp h
    obtain ⟨m, hm, rfl⟩ := position?_eq_some hp
    exact ⟨n, m, rfl, hm, hid⟩

theorem parent?_ofNodes {nodes : List Node} {i : Nat} {n : Node} (here : nodes[i]? = some n) :
    (ofNodes nodes).parent? i = n.parentId.bind (position? nodes) := by
  unfold parent? ofNodes
  rw [List.getElem?_map, here, Option.map_some, Option.join_some]

/-- The positions of the nodes whose parent is at a position. -/
theorem children_ofNodes (nodes : List Node) (i : Nat) : (ofNodes nodes).children i =
    (nodes.zipIdx.filter fun q => q.1.parentId.bind (position? nodes) == some i).map (·.2) := by
  rw [children, ofNodes, List.zipIdx_map, List.filter_map, List.map_map]
  rfl

/-- A link between nodes is one between their positions. -/
theorem parent?_of_link {nodes : List Node} (ids : (nodes.map (·.id)).Nodup) {i p : Nat}
    {n m : Node} (child : nodes[i]? = some n) (parent : nodes[p]? = some m)
    (link : n.parentId = some m.id) : (ofNodes nodes).parent? i = some p := by
  rw [parent?_ofNodes child, link, Option.bind_some, position?_of_getElem? ids parent]

/-- If no node is its own ancestor, no position is. -/
theorem acyclic_ofNodes {nodes : List Node} {isParent : String → String → Prop}
    (links : ∀ n ∈ nodes, ∀ id, n.parentId = some id → isParent id n.id)
    (acyclic : ∀ id, ¬ TransGen isParent id id) (i : Nat) :
    ¬ TransGen (Link (ofNodes nodes).parent?) i i := by
  intro cycle
  -- follow the links from position to position by the ids of the nodes there
  let idAt : Nat → String := fun j => ((nodes[j]?).map Node.id).getD ""
  have step : ∀ a b, Link (ofNodes nodes).parent? a b → isParent (idAt a) (idAt b) := by
    intro a b hab
    obtain ⟨n, m, hn, hm, hparent⟩ := link_ofNodes hab
    have link := links n (List.mem_of_getElem? hn) m.id hparent
    simpa only [idAt, hn, hm, Option.map_some, Option.getD_some] using link
  exact acyclic (idAt i) (TransGen.lift idAt step _ _ cycle)

/-! ## Lineages -/

theorem isChain_climb (f : Forest) (steps : Nat) : ∀ {chain : List Nat},
    chain.IsChain (Link f.parent?) → (f.climb steps chain).IsChain (Link f.parent?) := by
  induction steps with
  | zero => exact fun linked => linked
  | succ steps ih =>
    intro chain linked
    rw [climb]
    split
    · exact linked
    · rename_i p up
      split
      · exact linked
      · refine ih ?_
        cases chain with
        | nil => cases up
        | cons i chain => exact List.isChain_cons_cons.mpr ⟨up, linked⟩

theorem lt_of_mem_climb {f : Forest} (inside : ∀ {i p : Nat}, f.parent? i = some p → p < f.size)
    (steps : Nat) : ∀ {chain : List Nat}, (∀ j ∈ chain, j < f.size) →
      ∀ j ∈ f.climb steps chain, j < f.size := by
  induction steps with
  | zero => exact fun within => within
  | succ steps ih =>
    intro chain within
    rw [climb]
    split
    · exact within
    · rename_i p up
      split
      · exact within
      · refine ih fun j hj => ?_
        obtain ⟨i, -, link⟩ := Option.bind_eq_some_iff.mp up
        rcases List.mem_cons.mp hj with rfl | hj
        · exact inside link
        · exact within j hj

/-- Every member of a lineage is a position. -/
theorem lt_of_mem_lineage {f : Forest} (inside : ∀ {i p : Nat}, f.parent? i = some p → p < f.size)
    {i : Nat} (bound : i < f.size) {j : Nat} (mem : j ∈ f.lineage i) : j < f.size :=
  lt_of_mem_climb inside _ (by simpa using bound) j mem

/-- Every member of a lineage is the parent of the next. -/
theorem isChain_lineage (f : Forest) (i : Nat) : (f.lineage i).IsChain (Link f.parent?) :=
  isChain_climb f _ (List.IsChain.singleton i)

/-! ## Depth -/

open Classical in
/-- The number of ancestors of a position. -/
noncomputable def depth (f : Forest) (i : Nat) : Nat :=
  ((Finset.range f.size).filter fun j => TransGen (Link f.parent?) j i).card

/-- Without cycles a parent has fewer ancestors than its children. -/
theorem depth_lt_of_parent? {f : Forest} (acyclic : ∀ i, ¬ TransGen (Link f.parent?) i i)
    {i p : Nat} (h : f.parent? i = some p) (bound : p < f.size) : f.depth p < f.depth i := by
  classical
  have link : Link f.parent? p i := h
  unfold depth
  refine Finset.card_lt_card (Finset.ssubset_iff_of_subset ?_ |>.mpr ⟨p, ?_, ?_⟩)
  · intro j hj
    rw [Finset.mem_filter] at hj ⊢
    exact ⟨hj.1, hj.2.tail link⟩
  · rw [Finset.mem_filter, Finset.mem_range]
    exact ⟨bound, .single link⟩
  · intro mem
    exact acyclic p (Finset.mem_filter.mp mem).2

end Rollup.Forest

/-!
# Stable sorting

Insertion sort: elements that compare equal keep their order. It recurses on the list alone, so
closed instances reduce.

Results:

* `perm_stableSort`: sorting permutes.
* `stable_stableSort`: sorting puts a list in order and keeps the order of equal elements.
* `pairwise_stableSort`: sorting puts a list in order.
* `stableSort_of_sorted`: a list in order stays as it is.
-/

namespace Rollup

variable {α : Type}

/-- Puts `a` in front of the first element that it may precede. -/
def insertBefore (le : α → α → Bool) (a : α) : List α → List α
  | [] => [a]
  | b :: rest => if le a b then a :: b :: rest else b :: insertBefore le a rest

/-- The elements in the order of `le`; equal ones keep their order. -/
def stableSort (le : α → α → Bool) : List α → List α
  | [] => []
  | a :: rest => insertBefore le a (stableSort le rest)

theorem perm_insertBefore (le : α → α → Bool) (a : α) (xs : List α) :
    (insertBefore le a xs).Perm (a :: xs) := by
  induction xs with
  | nil => exact List.Perm.refl _
  | cons b rest ih =>
    simp only [insertBefore]
    split
    · exact List.Perm.refl _
    · exact (ih.cons b).trans (List.Perm.swap a b rest)

theorem perm_stableSort (le : α → α → Bool) (xs : List α) : (stableSort le xs).Perm xs := by
  induction xs with
  | nil => exact List.Perm.refl _
  | cons a rest ih => exact (perm_insertBefore le a _).trans (ih.cons a)

/-- A list in order stays as it is. -/
theorem stableSort_of_sorted {le : α → α → Bool} {xs : List α}
    (sorted : xs.Pairwise fun a b => le a b = true) : stableSort le xs = xs := by
  induction xs with
  | nil => rfl
  | cons a rest ih =>
    obtain ⟨first, others⟩ := List.pairwise_cons.mp sorted
    rw [stableSort, ih others]
    cases rest with
    | nil => rfl
    | cons b rest => rw [insertBefore, if_pos (first b List.mem_cons_self)]

section Ordered

variable {le : α → α → Bool} (trans : ∀ a b c, le a b = true → le b c = true → le a c = true)
  (total : ∀ a b, le a b = true ∨ le b a = true)

include trans total

/-- Inserting in front of elements that come later keeps them in order. -/
theorem stable_insertBefore {before : α → α → Prop} (a : α) {xs : List α}
    (first : ∀ b ∈ xs, before a b)
    (sorted : xs.Pairwise fun b c => le b c = true ∧ (le c b = true → before b c)) :
    (insertBefore le a xs).Pairwise fun b c => le b c = true ∧ (le c b = true → before b c) := by
  induction xs with
  | nil => exact List.pairwise_singleton _ a
  | cons b rest ih =>
    obtain ⟨ahead, others⟩ := List.pairwise_cons.mp sorted
    rw [insertBefore]
    split
    · rename_i small
      refine List.pairwise_cons.mpr ⟨fun c hc => ⟨?_, fun _ => first c hc⟩, sorted⟩
      rcases List.mem_cons.mp hc with rfl | hc
      · exact small
      · exact trans a b c small (ahead c hc).1
    · rename_i large
      refine List.pairwise_cons.mpr
        ⟨fun c hc => ?_, ih (fun c hc => first c (List.mem_cons_of_mem b hc)) others⟩
      rcases List.mem_cons.mp ((perm_insertBefore le a rest).mem_iff.mp hc) with rfl | hc
      · exact ⟨(total b c).resolve_right large, fun small => absurd small large⟩
      · exact ahead c hc

/-- Sorting puts a list in order, and elements that compare equal keep the order they had. -/
theorem stable_stableSort {before : α → α → Prop} {xs : List α} (ordered : xs.Pairwise before) :
    (stableSort le xs).Pairwise fun b c => le b c = true ∧ (le c b = true → before b c) := by
  induction xs with
  | nil => exact List.Pairwise.nil
  | cons a rest ih =>
    obtain ⟨first, others⟩ := List.pairwise_cons.mp ordered
    refine stable_insertBefore trans total a (fun b hb => first b ?_) (ih others)
    exact (perm_stableSort le rest).mem_iff.mp hb

/-- Sorting puts a list in order. -/
theorem pairwise_stableSort (xs : List α) :
    (stableSort le xs).Pairwise fun a b => le a b = true :=
  (stable_stableSort trans total (List.pairwise_of_forall (R := fun _ _ => True)
    fun _ _ => trivial)).imp And.left

end Ordered

@[simp] theorem mem_stableSort (le : α → α → Bool) (xs : List α) (a : α) :
    a ∈ stableSort le xs ↔ a ∈ xs :=
  (perm_stableSort le xs).mem_iff

@[simp] theorem length_stableSort (le : α → α → Bool) (xs : List α) :
    (stableSort le xs).length = xs.length :=
  (perm_stableSort le xs).length_eq

end Rollup

import Mathlib.Data.List.Basic
import Mathlib.Data.List.Flatten
import Mathlib.Order.Bounds.Basic
import Mathlib.Order.MinMax
import Rollup.Sort

/-!
# Sorting by rank

A list that is sorted by rank is given by what it holds of each rank, in order. So a stable sort by
rank is the elements of the lowest rank as they stood, then those of the next one, and so on.

Results:

* `isGreatest_foldl_max`, `isLeast_foldl_min`: the greatest and the least value along a list.
* `stable_stableSort_key`: sorting by a key.
* `eq_of_filter_rank`: lists in order are equal if they agree on each rank.
* `filter_rank_stableSort`: a stable sort leaves the elements of one rank as they stood.
* `stableSort_eq_flatMap`: the closed form.
-/

namespace Rollup

/-! ## Greatest and least values -/

section Extremes

variable {α β : Type} [LinearOrder β]

theorem isGreatest_foldl_max (f : α → β) (xs : List α) (b : β) :
    IsGreatest {c | c = b ∨ ∃ a ∈ xs, f a = c} (xs.foldl (fun c a => max c (f a)) b) := by
  induction xs generalizing b with
  | nil => simp
  | cons a xs ih =>
    obtain ⟨mem, high⟩ := ih (max b (f a))
    have bound := high (Or.inl rfl)
    refine ⟨?_, ?_⟩
    · rcases mem with first | ⟨a', ha', same⟩
      · rcases max_choice b (f a) with eq | eq
        · exact Or.inl (first.trans eq)
        · exact Or.inr ⟨a, by simp, (first.trans eq).symm⟩
      · exact Or.inr ⟨a', by simp [ha'], same⟩
    · rintro c (rfl | ⟨a', ha', rfl⟩)
      · exact (le_max_left _ _).trans bound
      · rcases List.mem_cons.mp ha' with rfl | ha'
        · exact (le_max_right _ _).trans bound
        · exact high (Or.inr ⟨a', ha', rfl⟩)

theorem isLeast_foldl_min (f : α → β) (xs : List α) (b : β) :
    IsLeast {c | c = b ∨ ∃ a ∈ xs, f a = c} (xs.foldl (fun c a => min c (f a)) b) :=
  @isGreatest_foldl_max α (OrderDual β) _ f xs b

end Extremes

/-! ## Sorting by a key -/

section Keyed

variable {α β : Type} [LinearOrder β] (key : α → β)

/-- Sorting by a key puts a list in order, and elements with one key keep the order they had. -/
theorem stable_stableSort_key {before : α → α → Prop} {xs : List α}
    (ordered : xs.Pairwise before) : (stableSort (fun a b => key a ≤ key b) xs).Pairwise
      fun a b => key a ≤ key b ∧ (key a = key b → before a b) := by
  have trans : ∀ a b c, decide (key a ≤ key b) = true → decide (key b ≤ key c) = true →
      decide (key a ≤ key c) = true := fun a b c hab hbc =>
    decide_eq_true ((of_decide_eq_true hab).trans (of_decide_eq_true hbc))
  have total : ∀ a b, decide (key a ≤ key b) = true ∨ decide (key b ≤ key a) = true := fun a b =>
    (le_total (key a) (key b)).imp decide_eq_true decide_eq_true
  exact (stable_stableSort trans total ordered).imp fun both =>
    ⟨of_decide_eq_true both.1, fun same => both.2 (decide_eq_true (le_of_eq same.symm))⟩

theorem pairwise_stableSort_key (xs : List α) :
    (stableSort (fun a b => key a ≤ key b) xs).Pairwise fun a b => key a ≤ key b :=
  (stable_stableSort_key key (List.pairwise_of_forall (R := fun _ _ => True)
    fun _ _ => trivial)).imp And.left

end Keyed

variable {α : Type} {rank : α → Nat}

/-! ## Lists in order of rank -/

/-- The head of a list in order has the lowest rank of all lists with the same ranks. -/
theorem rank_head_le {a b : α} {xs ys : List α}
    (ordered : (a :: xs).Pairwise fun a b => rank a ≤ rank b)
    (same : (a :: xs).filter (rank · = rank b) = (b :: ys).filter (rank · = rank b)) :
    rank a ≤ rank b := by
  have mem : b ∈ (a :: xs).filter (rank · = rank b) := by
    rw [same]
    simp
  rcases List.mem_cons.mp (List.mem_of_mem_filter mem) with rfl | mem
  · exact Nat.le_refl _
  · exact (List.pairwise_cons.mp ordered).1 b mem

/-- Lists in order of rank are equal if they have the same elements of each rank, in one order. -/
theorem eq_of_filter_rank {xs ys : List α} (hxs : xs.Pairwise fun a b => rank a ≤ rank b)
    (hys : ys.Pairwise fun a b => rank a ≤ rank b)
    (same : ∀ k, xs.filter (rank · = k) = ys.filter (rank · = k)) : xs = ys := by
  induction xs generalizing ys with
  | nil =>
    cases ys with
    | nil => rfl
    | cons b ys =>
      have here := same (rank b)
      simp at here
  | cons a xs ih =>
    cases ys with
    | nil =>
      have here := same (rank a)
      simp at here
    | cons b ys =>
      have level : rank a = rank b := Nat.le_antisymm (rank_head_le hxs (same (rank b)))
        (rank_head_le hys (same (rank a)).symm)
      have heads := same (rank a)
      rw [List.filter_cons_of_pos (by simp), List.filter_cons_of_pos (by simp [level])] at heads
      obtain rfl := (List.cons.inj heads).1
      rw [ih (List.pairwise_cons.mp hxs).2 (List.pairwise_cons.mp hys).2 fun k => ?_]
      have here := same k
      by_cases hk : rank a = k
      · rw [List.filter_cons_of_pos (by simpa), List.filter_cons_of_pos (by simpa)] at here
        exact (List.cons.inj here).2
      · rwa [List.filter_cons_of_neg (by simpa), List.filter_cons_of_neg (by simpa)] at here

/-! ## Stable sorts -/

/-- An element that is put into a list comes first among those of its rank. -/
theorem filter_rank_insertBefore (a : α) (xs : List α) (k : Nat) :
    (insertBefore (fun a b => rank a ≤ rank b) a xs).filter (rank · = k) =
      (a :: xs).filter (rank · = k) := by
  induction xs with
  | nil => rfl
  | cons b xs ih =>
    rw [insertBefore]
    split
    · rfl
    · rename_i large
      -- the element moves behind `b`, which is of another rank
      have apart : rank a ≠ rank b := by
        intro level
        simp [level] at large
      rw [List.filter_cons, ih, List.filter_cons, List.filter_cons, List.filter_cons]
      by_cases hb : rank b = k
      · have ha : rank a ≠ k := hb ▸ apart
        simp [hb, ha]
      · simp [hb]

/-- A stable sort leaves the elements of one rank as they stood. -/
theorem filter_rank_stableSort (xs : List α) (k : Nat) :
    (stableSort (fun a b => rank a ≤ rank b) xs).filter (rank · = k) =
      xs.filter (rank · = k) := by
  induction xs with
  | nil => rfl
  | cons a xs ih => rw [stableSort, filter_rank_insertBefore, List.filter_cons, ih, List.filter_cons]

/-! ## The closed form -/

/-- The elements of one rank among those of several. -/
theorem filter_flatMap_rank (xs : List α) {ks : List Nat} (distinct : ks.Nodup) (k : Nat) :
    (ks.flatMap fun j => xs.filter (rank · = j)).filter (rank · = k) =
      if k ∈ ks then xs.filter (rank · = k) else [] := by
  induction ks with
  | nil => rfl
  | cons j ks ih =>
    obtain ⟨fresh, distinct⟩ := List.nodup_cons.mp distinct
    rw [List.flatMap_cons, List.filter_append, ih distinct, List.filter_filter]
    by_cases same : k = j
    · subst same
      simp [fresh]
    · have none : (xs.filter fun a => decide (rank a = k) && decide (rank a = j)) = [] := by
        rw [List.filter_eq_nil_iff]
        intro a _ both
        simp only [Bool.and_eq_true, decide_eq_true_eq] at both
        omega
      rw [none]
      simp [same]

/-- Sorting by rank is taking the elements of one rank after the other, where `ks` are the ranks
    that occur. -/
theorem stableSort_eq_flatMap {ks : List Nat} (ascending : ks.Pairwise (· < ·)) {xs : List α}
    (ranked : ∀ a ∈ xs, rank a ∈ ks) :
    stableSort (fun a b => rank a ≤ rank b) xs = ks.flatMap fun k => xs.filter (rank · = k) := by
  have level : ∀ (k : Nat), ∀ a ∈ xs.filter (rank · = k), rank a = k :=
    fun k a ha => by simpa using (List.mem_filter.mp ha).2
  have ordered : (stableSort (fun a b => rank a ≤ rank b) xs).Pairwise
      fun a b => rank a ≤ rank b := pairwise_stableSort_key rank xs
  refine eq_of_filter_rank ordered ?_ fun k => ?_
  · rw [List.pairwise_flatMap]
    refine ⟨fun k _ => ?_, ascending.imp fun {j k} below a ha b hb => ?_⟩
    · refine List.Pairwise.imp_of_mem (R := fun _ _ => True) (fun {a b} ha hb _ => ?_)
        (List.pairwise_of_forall fun _ _ => trivial)
      exact Nat.le_of_eq ((level k a ha).trans (level k b hb).symm)
    · rw [level j a ha, level k b hb]
      omega
  · rw [filter_rank_stableSort, filter_flatMap_rank xs (ascending.imp Nat.ne_of_lt)]
    split_ifs with occurs
    · rfl
    · rw [List.filter_eq_nil_iff]
      rintro a ha here
      simp only [decide_eq_true_eq] at here
      exact occurs (here ▸ ranked a ha)

end Rollup

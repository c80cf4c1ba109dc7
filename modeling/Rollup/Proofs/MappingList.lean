import Mathlib.Data.List.Basic
import Mathlib.Data.List.Nodup
import Mathlib.Data.List.Pairwise
import Rollup.MappingList
import Rollup.Proofs.Sort

/-!
# Putting mappings on a node

Two cases of putting a mapping have a closed form: above all indexes that are held it is appended,
and where the same mapping is held already nothing changes but the order.

Results:

* `pairwise_sort`: mappings with distinct indexes are sorted into ascending order.
* `put_of_last`, `put_of_mem`: the two cases.
-/

namespace Rollup.MappingList

variable {ms : List SourceMapping} {m : SourceMapping}

/-! ## Sorting -/

theorem perm_sort (ms : List SourceMapping) : (sort ms).Perm ms :=
  perm_stableSort _ ms

/-- Mappings with distinct indexes are sorted into ascending order. -/
theorem pairwise_sort (distinct : (ms.map (·.index)).Nodup) :
    (sort ms).Pairwise fun a b => a.index < b.index := by
  have ordered : (sort ms).Pairwise fun a b => a.index ≤ b.index :=
    pairwise_stableSort_key (·.index) ms
  have apart : (sort ms).Pairwise fun a b => a.index ≠ b.index :=
    List.pairwise_map.mp (((perm_sort ms).map _).nodup_iff.mpr distinct)
  refine (ordered.and apart).imp ?_
  intro a b hab
  omega

/-- Mappings in ascending order stay as they are. -/
theorem sort_of_pairwise (ascending : ms.Pairwise fun a b => a.index < b.index) : sort ms = ms := by
  apply stableSort_of_sorted
  refine ascending.imp ?_
  intro a b hab
  simp only [decide_eq_true_eq]
  omega

/-! ## Putting -/

theorem replace_of_free (free : ∀ n ∈ ms, n.index ≠ m.index) : replace m ms = none := by
  induction ms with
  | nil => rfl
  | cons n rest ih =>
    rw [replace, if_neg (free n (by simp)), ih fun k hk => free k (by simp [hk])]
    rfl

theorem replace_of_mem (distinct : (ms.map (·.index)).Nodup) (mem : m ∈ ms) :
    replace m ms = some (m, ms) := by
  induction ms with
  | nil => cases mem
  | cons n rest ih =>
    obtain ⟨fresh, others⟩ := List.nodup_cons.mp distinct
    rcases List.mem_cons.mp mem with rfl | mem
    · rw [replace, if_pos rfl]
    · have ne : n.index ≠ m.index := by
        intro same
        apply fresh
        exact List.mem_map.mpr ⟨m, mem, same.symm⟩
      rw [replace, if_neg ne, ih others mem]
      rfl

/-- A mapping above all others is appended. -/
theorem put_of_last (ascending : ms.Pairwise fun a b => a.index < b.index)
    (below : ∀ n ∈ ms, n.index < m.index) :
    put (some m.index) m ms = (ms ++ [m], .inserted) := by
  have free : replace m ms = none := replace_of_free fun n hn => by
    have := below n hn
    omega
  have whole : (ms ++ [m]).Pairwise fun a b => a.index < b.index := by
    rw [List.pairwise_append]
    refine ⟨ascending, List.pairwise_singleton _ _, ?_⟩
    intro a ha b hb
    rw [List.mem_singleton.mp hb]
    exact below a ha
  simp only [put, Option.getD_some, free, sort_of_pairwise whole]

/-- A mapping that is held already changes nothing but the order. -/
theorem put_of_mem (distinct : (ms.map (·.index)).Nodup) (mem : m ∈ ms) :
    put (some m.index) m ms = (sort ms, .unchanged) := by
  simp only [put, Option.getD_some, replace_of_mem distinct mem, if_true]

end Rollup.MappingList

import Mathlib.Data.List.Basic
import Mathlib.Data.List.Nodup
import Mathlib.Order.Bounds.Defs
import Mathlib.Tactic.Convert
import Mathlib.Tactic.SplitIfs
import Rollup.Proofs.Dict
import Rollup.Proofs.Export.Keys

/-!
# Which keys the main rows of an export get

A stored key stays with the first node that has it. The other nodes wait, and then take the gaps
from one on in their order.

Results:

* `mem_kept_iff`: who keeps a stored key.
* `isLeast_assign`: each key that is given out is the least free one.
* `inRange_main`: main keys have 64 bits.
* `mainKeys_main`: both together, for the main rows of an export in their order.
-/

namespace Rollup.ExportKeys

/-! ## Least free keys -/

/-- The search passes used keys only. -/
theorem mem_of_lt_freeFrom (used : List Int) (tries : Nat) : ∀ next k : Int,
    next ≤ k → k < freeFrom (· + 1) used tries next → k ∈ used := by
  induction tries with
  | zero =>
    intro next k least below
    rw [freeFrom] at below
    omega
  | succ tries ih =>
    intro next k least below
    rw [freeFrom] at below
    split_ifs at below with taken
    · by_cases same : k = next
      · rwa [same]
      · exact ih (next + 1) k (by omega) below
    · omega

/-- Where all smaller keys from one on are used, the key that is found is the least free one. -/
theorem isLeast_freeFrom {used : List Int} {next : Int} (positive : 1 ≤ next)
    (passed : ∀ k, 1 ≤ k → k < next → k ∈ used) :
    IsLeast {k | 1 ≤ k ∧ k ∉ used} (freeFrom (· + 1) used (used.length + 1) next) := by
  have least := le_freeFrom used (used.length + 1) next
  refine ⟨⟨by omega, freeFrom_succ_notMem used next⟩, ?_⟩
  rintro k ⟨above, free⟩
  by_contra smaller
  rcases Int.lt_or_le k next with lt | le
  · exact free (passed k above lt)
  · exact free (mem_of_lt_freeFrom used (used.length + 1) next k le (by omega))

/-- Below the key that is found no key from one on is free. -/
theorem mem_of_lt_isLeast {used : List Int} {found : Int}
    (least : IsLeast {k | 1 ≤ k ∧ k ∉ used} found) : ∀ k, 1 ≤ k → k < found → k ∈ used := by
  intro k above below
  by_contra free
  have := least.2 ⟨above, free⟩
  omega

/-- A key that is found is at most one more than the number of keys in use. -/
theorem freeFrom_le {used : List Int} {next : Int} (positive : 1 ≤ next)
    (passed : ∀ k, 1 ≤ k → k < next → k ∈ used) :
    freeFrom (· + 1) used (used.length + 1) next ≤ used.length + 1 := by
  have least := isLeast_freeFrom positive passed
  have above := least.1.1
  set found := freeFrom (· + 1) used (used.length + 1) next
  -- all numbers from one on below it are in use
  have nodup : ((List.range (found - 1).toNat).map fun j : Nat => (j : Int) + 1).Nodup :=
    List.nodup_range.map fun i j same => by simpa using same
  have met : ((List.range (found - 1).toNat).map fun j : Nat => (j : Int) + 1) ⊆ used := by
    intro k hk
    obtain ⟨j, hj, rfl⟩ := List.mem_map.mp hk
    have bound := List.mem_range.mp hj
    exact mem_of_lt_isLeast least _ (by omega) (by omega)
  have few := (nodup.subperm met).length_le
  rw [List.length_map, List.length_range] at few
  omega

/-- Assigned keys are at most as many as the keys in use then. -/
theorem assign_le (pending : List Nat) : ∀ {used : List Int} {next : Int}, 1 ≤ next →
    (∀ k, 1 ≤ k → k < next → k ∈ used) →
    ∀ q ∈ assign used next pending, q.2 ≤ (used.length + pending.length : Nat) := by
  induction pending with
  | nil =>
    intro used next _ _ q hq
    cases hq
  | cons i pending ih =>
    intro used next positive passed q hq
    have least := isLeast_freeFrom positive passed
    have bound := freeFrom_le positive passed
    rw [assign] at hq
    set found := freeFrom (· + 1) used (used.length + 1) next
    rw [List.length_cons]
    rcases List.mem_cons.mp hq with rfl | hq
    · dsimp only
      omega
    · have := ih least.1.1 (fun k above below =>
        List.mem_cons_of_mem _ (mem_of_lt_isLeast least k above below)) q hq
      rw [List.length_cons] at this
      omega

/-- Each assigned key is the least that is neither in use nor assigned before. -/
theorem isLeast_assign {i : Nat} {key : Int} {more : List (Nat × Int)} (pending : List Nat) :
    ∀ {used : List Int} {next : Int} {before : List (Nat × Int)}, 1 ≤ next →
      (∀ k, 1 ≤ k → k < next → k ∈ used) →
      assign used next pending = before ++ (i, key) :: more →
      IsLeast {k | 1 ≤ k ∧ k ∉ used ∧ k ∉ before.map (·.2)} key := by
  induction pending with
  | nil =>
    intro used next before _ _ split
    rw [assign] at split
    cases before <;> cases split
  | cons j pending ih =>
    intro used next before positive passed split
    rw [assign] at split
    have least := isLeast_freeFrom positive passed
    set found := freeFrom (· + 1) used (used.length + 1) next
    cases before with
    | nil =>
      obtain ⟨same, -⟩ := List.cons.inj split
      simpa [← (Prod.mk.inj same).2] using least
    | cons q before =>
      obtain ⟨rfl, rest⟩ := List.cons.inj split
      -- the next search starts at the key just found, below which nothing is free
      have here := ih least.1.1 (fun k above below =>
        List.mem_cons_of_mem _ (mem_of_lt_isLeast least k above below)) rest
      simpa only [List.mem_cons, List.map_cons, not_or, and_left_comm, and_assoc] using here

/-! ## Kept keys -/

/-- A key is kept by the first node that has it stored, unless it is in use. -/
theorem mem_kept_iff {i : Nat} {k : Int} (stored : List (Nat × Option Int)) : ∀ used : List Int,
    (i, k) ∈ kept used stored ↔ k ∉ used ∧ ∃ before more, stored = before ++ (i, some k) :: more ∧
      some k ∉ before.map (·.2) := by
  induction stored with
  | nil =>
    intro used
    simp [kept]
  | cons q stored ih =>
    intro used
    have later : (∃ before more, q :: stored = before ++ (i, some k) :: more ∧
        some k ∉ before.map (·.2)) ↔ q = (i, some k) ∨ q.2 ≠ some k ∧
          ∃ before more, stored = before ++ (i, some k) :: more ∧ some k ∉ before.map (·.2) := by
      constructor
      · rintro ⟨_ | ⟨r, before⟩, more, split, new⟩
        · exact Or.inl (List.cons.inj split).1
        · obtain ⟨rfl, rest⟩ := List.cons.inj split
          rw [List.map_cons, List.mem_cons, not_or] at new
          exact Or.inr ⟨Ne.symm new.1, before, more, rest, new.2⟩
      · rintro (rfl | ⟨ne, before, more, rfl, new⟩)
        · exact ⟨[], stored, rfl, by simp⟩
        · refine ⟨q :: before, more, rfl, ?_⟩
          rw [List.map_cons, List.mem_cons, not_or]
          exact ⟨Ne.symm ne, new⟩
    obtain ⟨j, _ | key⟩ := q
    · rw [kept, ih used, later]
      simp
    · rw [kept]
      split_ifs with taken
      · rw [ih used, later]
        grind
      · rw [List.mem_cons, ih (key :: used), later]
        grind

/-! ## Main keys -/

/-- Keys of main rows: the first of several equal stored keys is kept, and every other row has the
    least key from one on that is not stored and that no row before it has. -/
structure MainKeys (stored : List (Option Int)) (keys : List Int) : Prop where
  length : keys.length = stored.length
  kept : ∀ m k, stored[m]? = some (some k) → some k ∉ stored.take m → keys[m]? = some k
  least : ∀ m key, keys[m]? = some key →
    (∀ k, stored[m]? = some (some k) → some k ∈ stored.take m) →
    IsLeast {k | 1 ≤ k ∧ some k ∉ stored ∧ k ∉ keys.take m} key

section Main

variable {stored : List (Nat × Option Int)}

/-- The keys that are kept are all stored ones. -/
theorem mem_map_snd_kept {k : Int} :
    k ∈ (kept [] stored).map (·.2) ↔ some k ∈ stored.map (·.2) := by
  constructor
  · intro mem
    obtain ⟨q, hq, rfl⟩ := List.mem_map.mp mem
    exact List.mem_map.mpr ⟨_, ((kept_spec stored []).2.1 q hq).1, rfl⟩
  · intro mem
    obtain ⟨before, more, split, new⟩ := List.eq_append_cons_of_mem mem
    obtain ⟨first, rest, rfl, rfl, eq⟩ := List.map_eq_append_iff.mp split
    obtain ⟨q, rest, rfl, same, -⟩ := List.map_eq_cons_iff.mp eq
    refine List.mem_map.mpr ⟨(q.1, k), (mem_kept_iff _ []).mpr ⟨by simp, first, rest, ?_, new⟩, rfl⟩
    rw [← same]

section Distinct

variable (nodup : (stored.map (·.1)).Nodup) {i : Nat} {before more : List (Nat × Option Int)}

include nodup

theorem lookup_main {k : Int} (mem : (i, k) ∈ main stored) : (main stored).lookup i = some k := by
  refine lookup_of_unique mem fun b hb => ?_
  exact congrArg Prod.snd (List.inj_on_of_nodup_map (nodup_map_fst_main nodup) hb mem rfl)

/-- The first node with a stored key keeps it. -/
theorem lookup_main_of_new {k : Int} (split : stored = before ++ (i, some k) :: more)
    (new : some k ∉ before.map (·.2)) : (main stored).lookup i = some k :=
  lookup_main nodup (List.mem_append_left _
    ((mem_kept_iff stored []).mpr ⟨by simp, before, more, split, new⟩))

/-- A node whose stored key is missing or taken before does not keep it. -/
theorem notMem_kept_of_old {o : Option Int} (split : stored = before ++ (i, o) :: more)
    (old : ∀ k, o = some k → some k ∈ before.map (·.2)) : i ∉ (kept [] stored).map (·.1) := by
  intro mem
  obtain ⟨q, hq, rfl⟩ := List.mem_map.mp mem
  obtain ⟨-, xs, ys, eq, new⟩ := (mem_kept_iff stored []).mp hq
  have here : stored[xs.length]? = some (q.1, some q.2) := by simp [eq]
  have there : stored[before.length]? = some (q.1, o) := by simp [split]
  have same := index_of_nodup_map nodup here there rfl
  rw [same, there] at here
  have known := old q.2 (by simpa using here)
  have equal : xs = before := (List.append_inj (eq.symm.trans split) same).1
  exact new (equal ▸ known)

/-- A node without a stored key of its own gets the least free one. -/
theorem exists_isLeast_main {o : Option Int} (split : stored = before ++ (i, o) :: more)
    (old : ∀ k, o = some k → some k ∈ before.map (·.2)) :
    ∃ key, (main stored).lookup i = some key ∧ IsLeast {k | 1 ≤ k ∧ some k ∉ stored.map (·.2) ∧
      k ∉ before.map fun q => ((main stored).lookup q.1).getD 0} key := by
  have apart : i ∉ before.map (·.1) ∧ ∀ j ∈ before.map (·.1), j ∉ more.map (·.1) := by
    rw [split, List.map_append, List.map_cons] at nodup
    obtain ⟨-, -, disjoint⟩ := List.nodup_append'.mp nodup
    exact ⟨fun mem => disjoint mem (by simp), fun j hj hj' => disjoint hj (by simp [hj'])⟩
  set waits : Nat → Bool := fun j => !((kept [] stored).map (·.1)).contains j with hwaits
  have parts : (stored.map (·.1)).filter waits =
      (before.map (·.1)).filter waits ++ i :: (more.map (·.1)).filter waits := by
    rw [split, List.map_append, List.map_cons, List.filter_append, List.filter_cons_of_pos]
    simpa [hwaits] using notMem_kept_of_old nodup split old
  have nodes := (assign_spec ((stored.map (·.1)).filter waits) ((kept [] stored).map (·.2)) 1).1
  have eq : main stored = kept [] stored ++
    assign ((kept [] stored).map (·.2)) 1 ((stored.map (·.1)).filter waits) := rfl
  obtain ⟨given, rest, cut, first, waiting⟩ := List.map_eq_append_iff.mp (nodes.trans parts)
  obtain ⟨⟨j, key⟩, rest, rfl, rfl, last⟩ := List.map_eq_cons_iff.mp waiting
  have least := isLeast_assign _ (Int.le_refl 1) (fun k above below => by omega) cut
  refine ⟨key, lookup_main nodup (by rw [eq, cut]; simp), ?_⟩
  -- what is free there is what is neither stored nor a key of a node before
  convert least using 3 with k
  rw [mem_map_snd_kept]
  refine and_congr_right fun _ => and_congr_right fun free => not_congr ?_
  rw [List.mem_map, List.mem_map]
  constructor
  · rintro ⟨q, hq, rfl⟩
    have known : q.1 ∈ (main stored).map (·.1) :=
      mem_map_fst_main.mpr (List.mem_map_of_mem (by rw [split]; simp [hq]))
    obtain ⟨r, hr, same⟩ := List.mem_map.mp known
    rw [← same, lookup_main nodup hr, Option.getD_some] at free ⊢
    rw [eq, cut, List.mem_append, List.mem_append, List.mem_cons] at hr
    rcases hr with hr | hr | rfl | hr
    · exact absurd (mem_map_snd_kept.mp (List.mem_map_of_mem hr)) free
    · exact ⟨r, hr, rfl⟩
    · exact absurd (same ▸ List.mem_map_of_mem hq) apart.1
    · have later : r.1 ∈ (more.map (·.1)).filter waits := last ▸ List.mem_map_of_mem hr
      refine absurd (List.mem_of_mem_filter later) (apart.2 r.1 ?_)
      rw [same]
      exact List.mem_map_of_mem hq
  · rintro ⟨q, hq, rfl⟩
    have earlier : q.1 ∈ (before.map (·.1)).filter waits := first ▸ List.mem_map_of_mem hq
    obtain ⟨r, hr, same⟩ := List.mem_map.mp (List.mem_of_mem_filter earlier)
    have mem : (q.1, q.2) ∈ main stored := by rw [eq, cut]; simp [hq]
    exact ⟨r, hr, by rw [same, lookup_main nodup mem, Option.getD_some]⟩

end Distinct

theorem length_main_le (nodup : (stored.map (·.1)).Nodup) : (main stored).length ≤ stored.length := by
  have nodes := ((nodup_map_fst_main nodup).subperm fun i hi => mem_map_fst_main.mp hi).length_le
  rwa [List.length_map, List.length_map] at nodes

/-- Main keys have 64 bits if the stored ones have, as there are fewer nodes than numbers. -/
theorem inRange_main (nodup : (stored.map (·.1)).Nodup) (size : stored.length < 2 ^ 63)
    (range : ∀ q ∈ stored, ∀ k, q.2 = some k → Literal.inRange k = true) :
    ∀ q ∈ main stored, Literal.inRange q.2 = true := by
  intro q hq
  rcases List.mem_append.mp hq with mem | mem
  · exact range _ ((kept_spec stored []).2.1 q mem).1 q.2 rfl
  · have nodes := length_main_le nodup
    have positive := ((assign_spec _ _ _).2.1 q mem).1
    have bound := assign_le _ (Int.le_refl 1) (fun k above below => by omega) q mem
    have pending := congrArg List.length (assign_spec
      ((stored.map (·.1)).filter fun i => !((kept [] stored).map (·.1)).contains i)
      ((kept [] stored).map (·.2)) 1).1
    rw [main, List.length_append] at nodes
    simp only [List.length_map] at pending bound
    rw [inRange_iff]
    omega

/-- The keys of the main rows, in the order of the rows. -/
theorem mainKeys_main (nodup : (stored.map (·.1)).Nodup) :
    MainKeys (stored.map (·.2)) (stored.map fun q => ((main stored).lookup q.1).getD 0) := by
  have cut : ∀ {m : Nat} {q : Nat × Option Int}, stored[m]? = some q →
      stored = stored.take m ++ (q.1, q.2) :: stored.drop (m + 1) := by
    intro m q here
    obtain ⟨bound, rfl⟩ := List.getElem?_eq_some_iff.mp here
    rw [← List.drop_eq_getElem_cons, List.take_append_drop]
  refine ⟨by simp, fun m k here new => ?_, fun m key here old => ?_⟩
  · rw [List.getElem?_map, Option.map_eq_some_iff] at here
    obtain ⟨q, here, same⟩ := here
    rw [← List.map_take] at new
    have split := cut here
    rw [same] at split
    rw [List.getElem?_map, here, Option.map_some, lookup_main_of_new nodup split new,
      Option.getD_some]
  · rw [List.getElem?_map, Option.map_eq_some_iff] at here
    obtain ⟨q, here, rfl⟩ := here
    rw [List.getElem?_map, here, ← List.map_take] at old
    obtain ⟨key, found, least⟩ := exists_isLeast_main nodup (cut here)
      fun k stored => old k (by rw [Option.map_some, stored])
    rw [found, Option.getD_some, ← List.map_take]
    exact least

end Main

end Rollup.ExportKeys

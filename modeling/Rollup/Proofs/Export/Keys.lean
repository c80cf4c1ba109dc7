import Mathlib.Data.List.Basic
import Mathlib.Data.List.Perm.Subperm
import Mathlib.Logic.Function.Iterate
import Mathlib.Tactic.NormNum
import Mathlib.Tactic.SplitIfs
import Rollup.Export.Keys
import Rollup.Literal

/-!
# The keys of an export are distinct

Every node gets a main key of its own, a stored one or a positive one, and no further row has a main
key. As long as 64 bits suffice, the keys of further rows lie beyond all main keys and go up by one.

Results:

* `freeFrom_notMem`: the search for a free key finds one.
* `mem_map_fst_main`, `nodup_main`: the nodes that have a main key, and that no two share one.
* `main_of_distinct`: distinct stored keys are the main keys.
* `inRange_further`, `further_notMem`: the keys of further rows have 64 bits and are no main keys, even
  where the counter wraps around.
* `further_of_lt`, `firstExtra_eq_beyond`: the keys of further rows where it does not.
-/

namespace Rollup.ExportKeys

/-! ## Stored keys -/

/-- What is kept: stored keys of distinct nodes, none of which is in use. -/
theorem kept_spec (stored : List (Nat × Option Int)) : ∀ used : List Int,
    ((kept used stored).map (·.1)).Sublist (stored.map (·.1)) ∧
      (∀ q ∈ kept used stored, (q.1, some q.2) ∈ stored ∧ q.2 ∉ used) ∧
      ((kept used stored).map (·.2)).Nodup := by
  induction stored with
  | nil => intro used; simp [kept]
  | cons q stored ih =>
    intro used
    obtain ⟨i, _ | key⟩ := q
    · obtain ⟨sub, spec, nodup⟩ := ih used
      rw [kept]
      refine ⟨sub.cons i, fun q hq => ?_, nodup⟩
      exact ⟨List.mem_cons_of_mem _ (spec q hq).1, (spec q hq).2⟩
    · rw [kept]
      split_ifs with taken
      · obtain ⟨sub, spec, nodup⟩ := ih used
        refine ⟨sub.cons i, fun q hq => ?_, nodup⟩
        exact ⟨List.mem_cons_of_mem _ (spec q hq).1, (spec q hq).2⟩
      · obtain ⟨sub, spec, nodup⟩ := ih (key :: used)
        refine ⟨sub.cons_cons i, fun q hq => ?_, ?_⟩
        · rcases List.mem_cons.mp hq with rfl | hq
          · exact ⟨by simp, taken⟩
          · obtain ⟨mem, fresh⟩ := spec q hq
            exact ⟨List.mem_cons_of_mem _ mem, fun h => fresh (List.mem_cons_of_mem _ h)⟩
        · rw [List.map_cons, List.nodup_cons]
          refine ⟨fun mem => ?_, nodup⟩
          obtain ⟨q, hq, same⟩ := List.mem_map.mp mem
          exact (spec q hq).2 (by rw [same]; exact List.mem_cons_self)

/-! ## The search for a free key -/

/-- What holds of a number and is kept by a step holds of the number that is found. -/
theorem freeFrom_of_step {step : Int → Int} {used : List Int} {P : Int → Prop}
    (keeps : ∀ k, P k → P (step k)) (tries : Nat) : ∀ next : Int, P next →
      P (freeFrom step used tries next) := by
  induction tries with
  | zero => exact fun _ h => h
  | succ tries ih =>
    intro next h
    rw [freeFrom]
    split_ifs
    · exact ih _ (keeps _ h)
    · exact h

/-- A search that ends at a number in use has met such numbers only. -/
theorem iterate_mem_of_freeFrom_mem {step : Int → Int} {used : List Int} (tries : Nat) :
    ∀ next : Int, freeFrom step used tries next ∈ used → ∀ j < tries, step^[j] next ∈ used := by
  induction tries with
  | zero => intro _ _ j hj; omega
  | succ tries ih =>
    intro next taken j hj
    rw [freeFrom] at taken
    split_ifs at taken with first
    · cases j with
      | zero => exact first
      | succ j =>
        rw [Function.iterate_succ_apply]
        exact ih _ taken j (by omega)
    · exact absurd taken first

/-- The search finds a free number if it comes to more different numbers than are in use. -/
theorem freeFrom_notMem {step : Int → Int} {used : List Int} {next : Int}
    (apart : ∀ i j, i < j → j ≤ used.length → step^[i] next ≠ step^[j] next) :
    freeFrom step used (used.length + 1) next ∉ used := by
  intro taken
  have nodup : ((List.range (used.length + 1)).map fun j => step^[j] next).Nodup := by
    rw [List.Nodup, List.pairwise_map]
    exact List.pairwise_lt_range.imp_of_mem fun {i j} _ hj less =>
      apart i j less (Nat.lt_succ_iff.mp (List.mem_range.mp hj))
  have met : ((List.range (used.length + 1)).map fun j => step^[j] next) ⊆ used := by
    intro k hk
    obtain ⟨j, hj, rfl⟩ := List.mem_map.mp hk
    exact iterate_mem_of_freeFrom_mem _ next taken j (List.mem_range.mp hj)
  have few := (nodup.subperm met).length_le
  rw [List.length_map, List.length_range] at few
  omega

/-! ## Assigned keys -/

theorem iterate_add_one (j : Nat) (next : Int) : (fun k : Int => k + 1)^[j] next = next + j := by
  induction j with
  | zero => simp
  | succ j ih =>
    rw [Function.iterate_succ_apply', ih]
    omega

theorem le_freeFrom (used : List Int) (tries : Nat) (next : Int) :
    next ≤ freeFrom (· + 1) used tries next :=
  freeFrom_of_step (P := (next ≤ ·)) (fun k (h : next ≤ k) => by omega) tries next (Int.le_refl next)

/-- Counting on always finds a free key. -/
theorem freeFrom_succ_notMem (used : List Int) (next : Int) :
    freeFrom (· + 1) used (used.length + 1) next ∉ used := by
  refine freeFrom_notMem fun i j less _ => ?_
  rw [iterate_add_one, iterate_add_one]
  omega

/-- What is assigned: to each node a key from `next` on that is not in use, no key twice. -/
theorem assign_spec (pending : List Nat) : ∀ (used : List Int) (next : Int),
    (assign used next pending).map (·.1) = pending ∧
      (∀ q ∈ assign used next pending, next ≤ q.2 ∧ q.2 ∉ used) ∧
      ((assign used next pending).map (·.2)).Nodup := by
  induction pending with
  | nil => intro used next; simp [assign]
  | cons i pending ih =>
    intro used next
    set key := freeFrom (· + 1) used (used.length + 1) next with hkey
    have least : next ≤ key := le_freeFrom used _ next
    have free : key ∉ used := freeFrom_succ_notMem used next
    obtain ⟨nodes, spec, nodup⟩ := ih (key :: used) key
    rw [assign]
    refine ⟨by rw [List.map_cons, nodes], fun q hq => ?_, ?_⟩
    · rcases List.mem_cons.mp hq with rfl | hq
      · exact ⟨least, free⟩
      · obtain ⟨above, fresh⟩ := spec q hq
        exact ⟨Int.le_trans least above, fun h => fresh (List.mem_cons_of_mem _ h)⟩
    · rw [List.map_cons, List.nodup_cons]
      refine ⟨fun mem => ?_, nodup⟩
      obtain ⟨q, hq, same⟩ := List.mem_map.mp mem
      exact (spec q hq).2 (by rw [same]; exact List.mem_cons_self)

/-! ## Main keys -/

section Main

variable {stored : List (Nat × Option Int)}

/-- Every node has a main key. -/
theorem mem_map_fst_main {i : Nat} :
    i ∈ (main stored).map (·.1) ↔ i ∈ stored.map (·.1) := by
  unfold main
  dsimp only
  rw [List.map_append, (assign_spec _ _ _).1, List.mem_append, List.mem_filter]
  constructor
  · rintro (h | ⟨h, -⟩)
    · exact (kept_spec stored []).1.subset h
    · exact h
  · intro h
    by_cases known : i ∈ (kept [] stored).map (·.1)
    · exact Or.inl known
    · exact Or.inr ⟨h, by simpa using known⟩

/-- No node has two main keys. -/
theorem nodup_map_fst_main (nodup : (stored.map (·.1)).Nodup) : ((main stored).map (·.1)).Nodup := by
  unfold main
  dsimp only
  rw [List.map_append, (assign_spec _ _ _).1]
  refine List.nodup_append.mpr ⟨nodup.sublist (kept_spec stored []).1, nodup.filter _, ?_⟩
  rintro i hi j hj rfl
  have := (List.mem_filter.mp hj).2
  rw [Bool.not_eq_true', List.contains_eq_mem, decide_eq_false_iff_not] at this
  exact this hi

/-- No two nodes share a main key. -/
theorem nodup_main (stored : List (Nat × Option Int)) : ((main stored).map (·.2)).Nodup := by
  unfold main
  dsimp only
  obtain ⟨-, spec, nodup⟩ := assign_spec
    ((stored.map (·.1)).filter fun i => !((kept [] stored).map (·.1)).contains i)
    ((kept [] stored).map (·.2)) 1
  rw [List.map_append]
  refine List.nodup_append.mpr ⟨(kept_spec stored []).2.2, nodup, ?_⟩
  rintro k hk k' hk' rfl
  obtain ⟨q, hq, rfl⟩ := List.mem_map.mp hk'
  exact (spec q hq).2 hk

/-- A main key is a stored one or positive. -/
theorem stored_or_pos_of_mem_main {q : Nat × Int} (mem : q ∈ main stored) :
    (q.1, some q.2) ∈ stored ∨ 1 ≤ q.2 := by
  rcases List.mem_append.mp mem with mem | mem
  · exact Or.inl ((kept_spec stored []).2.1 q mem).1
  · exact Or.inr ((assign_spec _ _ _).2.1 q mem).1

end Main

/-- Distinct stored keys are all kept. -/
theorem kept_of_distinct (entries : List (Nat × Int)) : ∀ used : List Int,
    (used ++ entries.map (·.2)).Nodup →
      kept used (entries.map fun q => (q.1, some q.2)) = entries := by
  induction entries with
  | nil => intro used _; rfl
  | cons q entries ih =>
    intro used nodup
    rw [List.map_cons] at nodup
    have next : (q.2 :: used ++ entries.map (·.2)).Nodup :=
      List.perm_middle.nodup_iff.mp nodup
    have free : q.2 ∉ used := fun mem =>
      (List.nodup_cons.mp next).1 (List.mem_append_left _ mem)
    rw [List.map_cons, kept, if_neg free, ih _ next]

/-- Where all keys are stored and distinct, the main keys are the stored ones. -/
theorem main_of_distinct {entries : List (Nat × Int)} (nodup : (entries.map (·.2)).Nodup) :
    main (entries.map fun q => (q.1, some q.2)) = entries := by
  have nodes : (entries.map fun q => (q.1, some q.2)).map (·.1) = entries.map (·.1) := by
    rw [List.map_map]
    rfl
  have pending : (entries.map (·.1)).filter (fun i => !(entries.map (·.1)).contains i) = [] := by
    rw [List.filter_eq_nil_iff]
    intro i hi
    simpa using hi
  unfold main
  dsimp only
  rw [kept_of_distinct entries [] (by simpa using nodup), nodes, pending, assign, List.append_nil]

/-! ## Keys of 64 bits -/

theorem inRange_iff {k : Int} : Literal.inRange k = true ↔ -(2 ^ 63) ≤ k ∧ k < 2 ^ 63 := by
  rw [Literal.inRange, Bool.and_eq_true, decide_eq_true_eq, decide_eq_true_eq]
  norm_num [twoTo]

theorem greatest_eq : greatest = 2 ^ 63 - 1 := by
  norm_num [greatest, twoTo]

theorem succ_eq (k : Int) : succ k = if k = 2 ^ 63 - 1 then -(2 ^ 63) else k + 1 := by
  rw [succ, greatest_eq]
  norm_num [twoTo]

theorem succ_of_lt {k : Int} (below : k < greatest) : succ k = k + 1 :=
  if_neg (ne_of_lt below)

theorem inRange_succ {k : Int} (h : Literal.inRange k = true) : Literal.inRange (succ k) = true := by
  rw [inRange_iff] at h ⊢
  rw [succ_eq]
  split_ifs <;> omega

/-- Counting on from a key, by fewer steps than there are keys. -/
theorem iterate_succ {next : Int} (h : Literal.inRange next = true) {j : Nat} (few : j < 2 ^ 64) :
    succ^[j] next = if next + j < 2 ^ 63 then next + j else next + j - 2 ^ 64 := by
  rw [inRange_iff] at h
  induction j with
  | zero =>
    rw [if_pos (by simpa using h.2)]
    simp
  | succ j ih =>
    rw [Function.iterate_succ_apply', ih (by omega), succ_eq]
    split_ifs <;> omega

/-- As long as not all keys are in use, a free one is found. -/
theorem vacant_notMem {used : List Int} {next : Int} (h : Literal.inRange next = true)
    (few : used.length < 2 ^ 63) : vacant used next ∉ used := by
  refine freeFrom_notMem fun i j less bound => ?_
  rw [iterate_succ h (by omega), iterate_succ h (by omega)]
  split_ifs <;> omega

theorem inRange_vacant {used : List Int} {next : Int} (h : Literal.inRange next = true) :
    Literal.inRange (vacant used next) = true :=
  freeFrom_of_step (P := (Literal.inRange · = true)) (fun _ => inRange_succ) _ next h

theorem inRange_after {used : List Int} (rows : Nat) : ∀ {next : Int},
    Literal.inRange next = true → Literal.inRange (after used rows next) = true := by
  induction rows with
  | zero => exact fun h => h
  | succ rows ih => exact fun h => ih (inRange_succ (inRange_vacant h))

/-! ## Further keys -/

section Perm

variable {used used' : List Int} (perm : used.Perm used')

include perm

/-- The order of the keys in use does not matter. -/
theorem vacant_of_perm (next : Int) : vacant used next = vacant used' next := by
  have congr : ∀ (tries : Nat) (next : Int),
      freeFrom succ used tries next = freeFrom succ used' tries next := by
    intro tries
    induction tries with
    | zero => intro next; rfl
    | succ tries ih =>
      intro next
      rw [freeFrom, freeFrom, ih]
      simp only [perm.mem_iff]
  rw [vacant, vacant, perm.length_eq, congr]

theorem after_of_perm (rows : Nat) : ∀ next : Int, after used rows next = after used' rows next := by
  induction rows with
  | zero => intro next; rfl
  | succ rows ih =>
    intro next
    rw [after, after, vacant_of_perm perm, ih]

theorem further_of_perm (next : Int) : further used next = further used' next := by
  funext k
  rw [further, further, after_of_perm perm, vacant_of_perm perm]

end Perm

theorem after_after (used : List Int) (a b : Nat) : ∀ next : Int,
    after used b (after used a next) = after used (a + b) next := by
  induction a with
  | zero =>
    intro next
    rw [Nat.zero_add]
    rfl
  | succ a ih =>
    intro next
    rw [Nat.succ_add]
    exact ih _

/-- After some further rows the keys go on. -/
theorem further_after (used : List Int) (a : Nat) (next : Int) :
    further used (after used a next) = fun k => further used next (a + k) := by
  funext k
  rw [further, further, after_after]

theorem inRange_further {used : List Int} {next : Int} (h : Literal.inRange next = true) (k : Nat) :
    Literal.inRange (further used next k) = true :=
  inRange_vacant (inRange_after k h)

theorem further_notMem {used : List Int} {next : Int} (h : Literal.inRange next = true)
    (few : used.length < 2 ^ 63) (k : Nat) : further used next k ∉ used :=
  vacant_notMem (inRange_after k h) few

section Rising

variable {used : List Int} {next : Int} (above : ∀ k ∈ used, k < next)

include above

theorem vacant_of_lt {k : Int} (le : next ≤ k) : vacant used k = k := by
  rw [vacant, freeFrom, if_neg]
  intro mem
  have := above k mem
  omega

/-- Beyond the keys in use the counter goes up by one with every row. -/
theorem after_of_lt (rows : Nat) (fits : next + rows ≤ greatest) :
    after used rows next = next + rows := by
  induction rows generalizing next with
  | zero => simp [after]
  | succ rows ih =>
    rw [after, vacant_of_lt above (Int.le_refl next), succ_of_lt (by omega),
      ih (fun k hk => by have := above k hk; omega) (by omega)]
    omega

/-- Beyond the keys in use the keys of further rows go up by one with every row. -/
theorem further_of_lt {rows : Nat} (fits : next + rows ≤ greatest) :
    further used next rows = next + rows := by
  rw [further, after_of_lt above rows fits, vacant_of_lt above (by omega)]

end Rising

/-! ## Where further keys start -/

/-- The number beyond the main keys that is `start` or later, where numbers do not end. -/
def beyond (start : Int) (keys : List (Nat × Int)) : Int :=
  keys.foldl (fun least p => max least (p.2 + 1)) start

/-- Main keys lie below the number beyond them. -/
theorem lt_beyond (keys : List (Nat × Int)) : ∀ start : Int,
    start ≤ beyond start keys ∧ ∀ q ∈ keys, q.2 < beyond start keys := by
  unfold beyond
  induction keys with
  | nil => intro start; simp
  | cons q keys ih =>
    intro start
    obtain ⟨least, below⟩ := ih (max start (q.2 + 1))
    rw [List.foldl_cons]
    refine ⟨by omega, fun r hr => ?_⟩
    rcases List.mem_cons.mp hr with rfl | hr
    · omega
    · exact below r hr

/-- The number beyond the main keys is no greater than it has to be. -/
theorem beyond_le {bound : Int} (keys : List (Nat × Int)) : ∀ start : Int, start ≤ bound →
    (∀ q ∈ keys, q.2 < bound) → beyond start keys ≤ bound := by
  unfold beyond
  induction keys with
  | nil => intro start least _; exact least
  | cons q keys ih =>
    intro start least below
    have first := below q (by simp)
    rw [List.foldl_cons]
    exact ih _ (by omega) fun r hr => below r (by simp [hr])

/-- Unless the greatest key is in use, further keys start beyond the main keys. -/
theorem firstExtra_eq_beyond {keys : List (Nat × Int)} (start : Int)
    (below : ∀ q ∈ keys, q.2 < greatest) : firstExtra start keys = beyond start keys := by
  rw [firstExtra]
  cases greatestMain : (keys.map (·.2)).max? with
  | none =>
    rw [List.max?_eq_none_iff, List.map_eq_nil_iff] at greatestMain
    rw [greatestMain]
    rfl
  | some last =>
    obtain ⟨mem, upper⟩ := List.max?_eq_some_iff.mp greatestMain
    obtain ⟨q, hq, rfl⟩ := List.mem_map.mp mem
    obtain ⟨least, above⟩ := lt_beyond keys start
    dsimp only
    rw [succ_of_lt (below q hq)]
    refine Int.le_antisymm (Int.max_le.mpr ⟨above q hq, least⟩) (beyond_le keys start (by omega) ?_)
    intro r hr
    have := upper r.2 (List.mem_map_of_mem hr)
    omega

/-- Where further keys start depends on the main keys only. -/
theorem firstExtra_congr {keys keys' : List (Nat × Int)} (start : Int)
    (same : ∀ k, k ∈ keys.map (·.2) ↔ k ∈ keys'.map (·.2)) :
    firstExtra start keys = firstExtra start keys' := by
  have greatestMain : (keys.map (·.2)).max? = (keys'.map (·.2)).max? := by
    refine Option.ext fun k => ?_
    rw [List.max?_eq_some_iff, List.max?_eq_some_iff]
    simp only [same]
  rw [firstExtra, firstExtra, greatestMain]

theorem inRange_firstExtra {start : Int} {keys : List (Nat × Int)}
    (first : Literal.inRange start = true)
    (range : ∀ q ∈ keys, Literal.inRange q.2 = true) :
    Literal.inRange (firstExtra start keys) = true := by
  rw [firstExtra]
  cases greatestMain : (keys.map (·.2)).max? with
  | none => exact first
  | some last =>
    obtain ⟨q, hq, rfl⟩ := List.mem_map.mp (List.max?_mem greatestMain)
    dsimp only
    rcases max_choice (succ q.2) start with eq | eq
    · rw [eq]
      exact inRange_succ (range q hq)
    · rw [eq]
      exact first

end Rollup.ExportKeys

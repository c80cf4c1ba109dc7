import Mathlib.Data.List.Induction
import Mathlib.Data.List.Nodup
import Mathlib.Tactic.SplitIfs
import Rollup.Buckets

/-!
# Laws of buckets

Collecting by key in closed form: the keys in the order of their first occurrence, each with the
elements that have it.

Results:

* `buckets_eq`: the closed form.
* `buckets_flatMap`: elements that stand together by key are collected as they stand.
* `flatMap_of_key`: one of several blocks, taken by its key.
* `mem_distinct`, `nodup_distinct`: the distinct elements of a list.
* `distinct_flatMap_replicate`: the distinct elements of runs of distinct keys.
-/

namespace Rollup

variable {κ α : Type} [DecidableEq κ]

/-! ## Distinct elements -/

theorem distinct_concat (ks : List κ) (k : κ) :
    distinct (ks ++ [k]) = if k ∈ distinct ks then distinct ks else distinct ks ++ [k] := by
  rw [distinct, List.foldl_append]
  rfl

@[simp] theorem mem_distinct {ks : List κ} {k : κ} : k ∈ distinct ks ↔ k ∈ ks := by
  induction ks using List.reverseRecOn with
  | nil => simp [distinct]
  | append_singleton ks j ih =>
    rw [distinct_concat, List.mem_append, List.mem_singleton, ← ih]
    split_ifs with h
    · constructor
      · exact Or.inl
      · rintro (hk | rfl)
        · exact hk
        · exact h
    · rw [List.mem_append, List.mem_singleton]

theorem nodup_distinct (ks : List κ) : (distinct ks).Nodup := by
  induction ks using List.reverseRecOn with
  | nil => exact List.nodup_nil
  | append_singleton ks j ih =>
    rw [distinct_concat]
    split_ifs with h
    · exact ih
    · rw [List.nodup_append_comm, List.singleton_append, List.nodup_cons]
      exact ⟨h, ih⟩

theorem distinct_append_replicate (ks : List κ) {k : κ} (fresh : k ∉ ks) (n : Nat) :
    distinct (ks ++ List.replicate n k) = distinct ks ++ if n = 0 then [] else [k] := by
  induction n with
  | zero => simp
  | succ n ih =>
    rw [List.replicate_succ', ← List.append_assoc, distinct_concat, ih]
    cases n with
    | zero => simp [fresh]
    | succ n => simp

/-- The distinct elements of runs of distinct keys are the keys of the runs that are not empty. -/
theorem distinct_flatMap_replicate (key : α → κ) (count : α → Nat) (xs : List α)
    (nodup : (xs.map key).Nodup) :
    distinct (xs.flatMap fun x => List.replicate (count x) (key x)) =
      (xs.filter fun x => count x ≠ 0).map key := by
  induction xs using List.reverseRecOn with
  | nil => rfl
  | append_singleton xs x ih =>
    rw [List.map_append, List.map_singleton, List.nodup_append_comm, List.singleton_append,
      List.nodup_cons] at nodup
    have fresh : key x ∉ xs.flatMap fun x => List.replicate (count x) (key x) := by
      rw [List.mem_flatMap]
      rintro ⟨y, hy, mem⟩
      exact nodup.1 (List.mem_map.mpr ⟨y, hy, (List.eq_of_mem_replicate mem).symm⟩)
    rw [List.flatMap_append, List.flatMap_singleton, distinct_append_replicate _ fresh,
      ih nodup.2, List.filter_append, List.map_append]
    congr 1
    by_cases none : count x = 0 <;> simp [none]

/-- In runs of distinct keys every key occurs as often as its run is long. -/
theorem count_flatMap_replicate (key : α → κ) (count : α → Nat) {xs : List α}
    (nodup : (xs.map key).Nodup) {x : α} (hx : x ∈ xs) :
    (xs.flatMap fun y => List.replicate (count y) (key y)).count (key x) = count x := by
  induction xs with
  | nil => cases hx
  | cons y ys ih =>
    rw [List.map_cons, List.nodup_cons] at nodup
    rw [List.flatMap_cons, List.count_append]
    rcases List.mem_cons.mp hx with rfl | hx
    · have absent : key x ∉ ys.flatMap fun y => List.replicate (count y) (key y) := by
        rw [List.mem_flatMap]
        rintro ⟨z, hz, mem⟩
        exact nodup.1 (List.mem_map.mpr ⟨z, hz, (List.eq_of_mem_replicate mem).symm⟩)
      rw [List.count_replicate_self, List.count_eq_zero_of_not_mem absent, Nat.add_zero]
    · have apart : key x ∉ List.replicate (count y) (key y) := fun mem =>
        nodup.1 (List.mem_map.mpr ⟨x, hx, List.eq_of_mem_replicate mem⟩)
      rw [List.count_eq_zero_of_not_mem apart, Nat.zero_add, ih nodup.2 hx]

/-! ## Buckets -/

theorem addToBucket_append {k : κ} {a : α} {done later : List (κ × List α)}
    (fresh : k ∉ done.map (·.1)) :
    addToBucket k a (done ++ later) = done ++ addToBucket k a later := by
  induction done with
  | nil => rfl
  | cons b done ih =>
    rw [List.map_cons, List.mem_cons, not_or] at fresh
    rw [List.cons_append, addToBucket, if_neg fresh.1, ih fresh.2, List.cons_append]

theorem addToBucket_map (k : κ) (a : α) (f : κ → List α) (ks : List κ) (nodup : ks.Nodup) :
    addToBucket k a (ks.map fun j => (j, f j)) =
      if k ∈ ks then ks.map fun j => (j, if j = k then f j ++ [a] else f j)
      else (ks.map fun j => (j, f j)) ++ [(k, [a])] := by
  induction ks with
  | nil => simp [addToBucket]
  | cons j ks ih =>
    rw [List.nodup_cons] at nodup
    rw [List.map_cons, addToBucket]
    by_cases h : k = j
    · subst h
      have others : (ks.map fun j => (j, if j = k then f j ++ [a] else f j)) =
          ks.map fun j => (j, f j) := by
        refine List.map_congr_left fun j hj => ?_
        rw [if_neg (by rintro rfl; exact nodup.1 hj)]
      simp [others]
    · rw [if_neg h, ih nodup.2]
      have ne : ¬ j = k := fun e => h e.symm
      by_cases hk : k ∈ ks <;> simp [h, hk, ne]

/-- The keys in the order of their first occurrence, each with its elements. -/
theorem buckets_eq (keyed : List (κ × α)) :
    buckets keyed = (distinct (keyed.map (·.1))).map fun k =>
      (k, (keyed.filter fun p => p.1 = k).map (·.2)) := by
  induction keyed using List.reverseRecOn with
  | nil => rfl
  | append_singleton keyed p ih =>
    obtain ⟨k, a⟩ := p
    have step : buckets (keyed ++ [(k, a)]) = addToBucket k a (buckets keyed) := by
      rw [buckets, List.foldl_append]
      rfl
    rw [step, ih, addToBucket_map _ _ _ _ (nodup_distinct _), List.map_append, List.map_singleton,
      distinct_concat]
    split_ifs with h
    · refine List.map_congr_left fun j _ => ?_
      by_cases hj : j = k
      · subst hj
        simp
      · have : ¬ k = j := fun e => hj e.symm
        simp [hj, this]
    · rw [mem_distinct] at h
      rw [List.map_append]
      congr 1
      · refine List.map_congr_left fun j hj => ?_
        have : ¬ k = j := by
          rintro rfl
          exact h (mem_distinct.mp hj)
        simp [this]
      · have none : keyed.filter (fun p => p.1 = k) = [] := by
          rw [List.filter_eq_nil_iff]
          intro q hq e
          exact h (List.mem_map.mpr ⟨q, hq, by simpa using e⟩)
        simp [none]

/-- Elements that already stand together by distinct keys are collected as they stand. -/
theorem buckets_flatMap {β : Type} (key : β → κ) (elements : β → List α) {blocks : List β}
    (distinctKeys : (blocks.map key).Nodup) (filled : ∀ b ∈ blocks, elements b ≠ []) :
    buckets (blocks.flatMap fun b => (elements b).map fun a => (key b, a)) =
      blocks.map fun b => (key b, elements b) := by
  -- a new block is collected into a bucket of its own
  have block : ∀ (as : List α) (k : κ) (done : List (κ × List α)) (front : List α),
      k ∉ done.map (·.1) → (as.map fun a => (k, a)).foldl (fun acc p => addToBucket p.1 p.2 acc)
        (done ++ [(k, front)]) = done ++ [(k, front ++ as)] := by
    intro as
    induction as with
    | nil => intro k done front _; simp
    | cons a as ih =>
      intro k done front fresh
      have step : addToBucket k a (done ++ [(k, front)]) = done ++ [(k, front ++ [a])] := by
        rw [addToBucket_append fresh]
        simp [addToBucket]
      rw [List.map_cons, List.foldl_cons, step, ih k done _ fresh, List.append_assoc]
      rfl
  have run : ∀ (blocks : List β) (done : List (κ × List α)),
      (done.map (·.1) ++ blocks.map key).Nodup → (∀ b ∈ blocks, elements b ≠ []) →
      (blocks.flatMap fun b => (elements b).map fun a => (key b, a)).foldl
        (fun acc p => addToBucket p.1 p.2 acc) done =
        done ++ blocks.map fun b => (key b, elements b) := by
    intro blocks
    induction blocks with
    | nil => intro done _ _; simp
    | cons b blocks ih =>
      intro done nodup filled
      have fresh : key b ∉ done.map (·.1) := fun mem =>
        (List.nodup_append'.mp nodup).2.2 mem (by simp)
      obtain ⟨a, as, split⟩ := List.exists_cons_of_ne_nil (filled b (by simp))
      have first : addToBucket (key b) a done = done ++ [(key b, [a])] := by
        have added : addToBucket (key b) a (done ++ []) = _ := addToBucket_append fresh
        rwa [List.append_nil] at added
      rw [List.flatMap_cons, List.foldl_append, split, List.map_cons, List.foldl_cons, first,
        block as (key b) done [a] fresh, List.singleton_append, ← split, ih]
      · rw [List.append_assoc]
        rfl
      · rw [List.map_append, List.append_assoc]
        exact nodup
      · exact fun b hb => filled b (by simp [hb])
  exact run blocks [] distinctKeys filled

/-- Of blocks with distinct keys, one has a given key. -/
theorem flatMap_of_key {β : Type} {key : α → κ} {xs : List α} (distinctKeys : (xs.map key).Nodup)
    {a : α} (mem : a ∈ xs) (elements : α → List β) :
    (xs.flatMap fun b => if key b = key a then elements b else []) = elements a := by
  induction xs with
  | nil => cases mem
  | cons x xs ih =>
    obtain ⟨fresh, distinctKeys⟩ := List.nodup_cons.mp distinctKeys
    rw [List.flatMap_cons]
    rcases List.mem_cons.mp mem with rfl | mem
    · have rest : (xs.flatMap fun b => if key b = key a then elements b else []) = [] := by
        rw [List.flatMap_eq_nil_iff]
        intro b hb
        rw [if_neg]
        intro same
        exact fresh (List.mem_map.mpr ⟨b, hb, same⟩)
      rw [if_pos rfl, rest, List.append_nil]
    · rw [if_neg, ih distinctKeys mem, List.nil_append]
      intro same
      exact fresh (List.mem_map.mpr ⟨a, mem, same.symm⟩)

/-- Collecting changed elements changes the collected ones. -/
theorem buckets_map {β : Type} (change : α → β) (keyed : List (κ × α)) :
    buckets (keyed.map fun p => (p.1, change p.2)) =
      (buckets keyed).map fun b => (b.1, b.2.map change) := by
  have keys : (keyed.map fun p => (p.1, change p.2)).map (·.1) = keyed.map (·.1) := by
    rw [List.map_map]
    rfl
  rw [buckets_eq, buckets_eq, keys, List.map_map]
  refine List.map_congr_left fun k _ => ?_
  rw [List.filter_map, List.map_map, Function.comp_apply, List.map_map]
  rfl

/-- The elements of a bucket have its key. -/
theorem mem_buckets {keyed : List (κ × α)} {b : κ × List α} (h : b ∈ buckets keyed) :
    b.1 ∈ keyed.map (·.1) ∧ ∀ a ∈ b.2, (b.1, a) ∈ keyed := by
  rw [buckets_eq] at h
  obtain ⟨k, hk, rfl⟩ := List.mem_map.mp h
  refine ⟨mem_distinct.mp hk, fun a ha => ?_⟩
  obtain ⟨q, hq, rfl⟩ := List.mem_map.mp ha
  rw [List.mem_filter, decide_eq_true_eq] at hq
  exact hq.2 ▸ hq.1

/-- No bucket is empty. -/
theorem ne_nil_of_mem_buckets {keyed : List (κ × α)} {b : κ × List α} (h : b ∈ buckets keyed) :
    b.2 ≠ [] := by
  rw [buckets_eq] at h
  obtain ⟨k, hk, rfl⟩ := List.mem_map.mp h
  obtain ⟨q, hq, rfl⟩ := List.mem_map.mp (mem_distinct.mp hk)
  exact List.ne_nil_of_mem (List.mem_map_of_mem (List.mem_filter.mpr ⟨hq, by simp⟩))

/-- Every element is in the bucket of its key. -/
theorem exists_bucket {keyed : List (κ × α)} {k : κ} {a : α} (mem : (k, a) ∈ keyed) :
    ∃ b ∈ buckets keyed, b.1 = k ∧ a ∈ b.2 := by
  rw [buckets_eq]
  refine ⟨_, List.mem_map.mpr ⟨k, mem_distinct.mpr (List.mem_map.mpr ⟨_, mem, rfl⟩), rfl⟩, rfl, ?_⟩
  exact List.mem_map.mpr ⟨_, List.mem_filter.mpr ⟨mem, by simp⟩, rfl⟩

end Rollup

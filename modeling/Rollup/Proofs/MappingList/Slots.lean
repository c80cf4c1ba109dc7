import Mathlib.Data.List.Basic
import Mathlib.Logic.Function.Basic
import Rollup.HierarchyRow
import Rollup.Proofs.Dict
import Rollup.Proofs.MappingList
import Rollup.Proofs.Sort

/-!
# Mapping lists as maps

A list of mappings in ascending index order is a map from indexes to mappings. Putting a mapping
updates the map at one index, so rows that are put one after the other act as a sequence of updates.

Results:

* `eq_of_slots`: ascending lists that hold the same mappings are equal.
* `put_spec`: what putting one mapping does, to the list and to the map.
* `applied_putAll`, `Applied.unique`: what putting the mappings of rows does.
* `slots_putAll`: where all rows have an index, the last row at each index counts.
* `putAll_putAll`, `moves_putAll_iff`: putting the mappings of such rows once more.
-/

namespace Rollup

/-- The mapping at another index. -/
def SourceMapping.movedTo (m : SourceMapping) (i : Int) : SourceMapping :=
  { m with index := i }

@[simp] theorem SourceMapping.index_movedTo (m : SourceMapping) (i : Int) :
    (m.movedTo i).index = i := rfl

theorem SourceMapping.movedTo_eq_iff {a b : SourceMapping} {i : Int} :
    a.movedTo i = b.movedTo i ↔ b.movedTo a.index = a := by
  constructor
  · intro same
    exact congrArg (·.movedTo a.index) same.symm
  · intro same
    exact (congrArg (·.movedTo i) same).symm

namespace MappingList

variable {ms ms' : List SourceMapping} {m : SourceMapping} {i : Int}

/-! ## The map of a list -/

/-- In strictly ascending index order. -/
def Ascending (ms : List SourceMapping) : Prop :=
  ms.Pairwise fun a b => a.index < b.index

theorem Ascending.nodup (h : Ascending ms) : (ms.map (·.index)).Nodup :=
  List.pairwise_map.mpr (h.imp fun less => Int.ne_of_lt less)

/-- The mapping that is held at an index. -/
def slots (ms : List SourceMapping) (i : Int) : Option SourceMapping :=
  ms.find? (·.index == i)

theorem slots_eq_none_iff : slots ms i = none ↔ ∀ n ∈ ms, n.index ≠ i := by
  simp [slots]

theorem slots_eq_some_iff (distinct : (ms.map (·.index)).Nodup) :
    slots ms i = some m ↔ m ∈ ms ∧ m.index = i := by
  constructor
  · intro found
    exact ⟨List.mem_of_find?_eq_some found, by simpa using List.find?_some found⟩
  · rintro ⟨mem, rfl⟩
    obtain ⟨k, here⟩ := List.getElem?_of_mem mem
    exact find?_of_nodup distinct here

/-- What is held does not depend on the order. -/
theorem slots_of_perm (distinct : (ms.map (·.index)).Nodup) (perm : ms'.Perm ms) :
    slots ms' = slots ms := by
  have distinct' : (ms'.map (·.index)).Nodup := (perm.map _).nodup_iff.mpr distinct
  funext i
  refine Option.ext fun m => ?_
  rw [slots_eq_some_iff distinct', slots_eq_some_iff distinct, perm.mem_iff]

/-- Ascending lists that hold the same mappings are equal. -/
theorem eq_of_slots (h : Ascending ms) (h' : Ascending ms') (same : slots ms = slots ms') :
    ms = ms' := by
  have members : ∀ m, m ∈ ms ↔ m ∈ ms' := by
    intro m
    have at_m := congrFun same m.index
    rw [← and_iff_left (a := m ∈ ms) (rfl : m.index = m.index), ← slots_eq_some_iff h.nodup, at_m,
      slots_eq_some_iff h'.nodup, and_iff_left rfl]
  have perm : ms.Perm ms' :=
    (List.perm_ext_iff_of_nodup h.nodup.of_map h'.nodup.of_map).mpr members
  exact List.Perm.eq_of_pairwise
    (fun a b _ _ less less' => absurd less' (Int.lt_asymm less)) h h' perm

/-! ## Putting one mapping -/

theorem slots_append_of_free (free : ∀ n ∈ ms, n.index ≠ m.index) :
    slots (ms ++ [m]) = Function.update (slots ms) m.index (some m) := by
  funext i
  unfold slots
  rw [List.find?_append]
  by_cases same : i = m.index
  · subst same
    have none : ms.find? (·.index == m.index) = none := slots_eq_none_iff.mpr free
    rw [none, Function.update_self]
    simp
  · rw [Function.update_of_ne same]
    simp [Ne.symm same]

theorem free_of_replace (h : replace m ms = none) : ∀ n ∈ ms, n.index ≠ m.index := by
  induction ms with
  | nil => simp
  | cons n rest ih =>
    rw [replace] at h
    split at h
    · cases h
    · rename_i ne
      rw [Option.map_eq_none_iff] at h
      exact List.forall_mem_cons.mpr ⟨ne, ih h⟩

/-- Replacing the mapping at an index. -/
theorem slots_replace {old : SourceMapping} (h : replace m ms = some (old, ms')) :
    slots ms m.index = some old ∧ slots ms' = Function.update (slots ms) m.index (some m) ∧
      ms'.map (·.index) = ms.map (·.index) := by
  induction ms generalizing ms' with
  | nil => cases h
  | cons n rest ih =>
    rw [replace] at h
    split at h
    · rename_i same
      cases h
      refine ⟨by simp [slots, same], ?_, by simp [same]⟩
      funext i
      by_cases here : i = m.index
      · subst here
        simp [slots]
      · rw [Function.update_of_ne here]
        simp [slots, same, Ne.symm here]
    · rename_i ne
      obtain ⟨⟨old', rest'⟩, found, eq⟩ := Option.map_eq_some_iff.mp h
      cases eq
      obtain ⟨held, updated, indexes⟩ := ih found
      refine ⟨?_, ?_, by rw [List.map_cons, List.map_cons, indexes]⟩
      · rw [slots, List.find?_cons_of_neg (by simpa using ne)]
        exact held
      · funext i
        have tail := congrFun updated i
        by_cases first : n.index = i
        · have other : i ≠ m.index := first ▸ ne
          rw [Function.update_of_ne other]
          simp [slots, first]
        · rw [slots, List.find?_cons_of_neg (by simpa using first)]
          refine tail.trans ?_
          by_cases here : i = m.index
          · subst here
            rw [Function.update_self, Function.update_self]
          · rw [Function.update_of_ne here, Function.update_of_ne here, slots, slots,
              List.find?_cons_of_neg (by simpa using first)]

/-- Putting a mapping updates the map at its index, or at the one after the highest. -/
theorem put_spec (h : Ascending ms) (index : Option Int) (m : SourceMapping) :
    Ascending (put index m ms).1 ∧
    slots (put index m ms).1 = Function.update (slots ms) (index.getD (nextIndex ms))
      (some (m.movedTo (index.getD (nextIndex ms)))) ∧
    ((put index m ms).2 = .unchanged ↔
      slots ms (index.getD (nextIndex ms)) = some (m.movedTo (index.getD (nextIndex ms)))) := by
  set i := index.getD (nextIndex ms) with hi
  cases found : replace (m.movedTo i) ms with
  | none =>
    have done : put index m ms = (sort (ms ++ [m.movedTo i]), .inserted) := by
      unfold SourceMapping.movedTo at found ⊢
      simp only [put, ← hi, found]
    rw [done]
    have free := free_of_replace found
    have distinct : ((ms ++ [m.movedTo i]).map (·.index)).Nodup := by
      rw [List.map_append, List.nodup_append_comm, List.map_singleton, List.singleton_append,
        List.nodup_cons]
      refine ⟨fun mem => ?_, h.nodup⟩
      obtain ⟨n, hn, same⟩ := List.mem_map.mp mem
      exact free n hn same
    refine ⟨pairwise_sort distinct, ?_, ?_⟩
    · exact (slots_of_perm distinct (perm_sort _)).trans (slots_append_of_free free)
    · have none : slots ms i = none := slots_eq_none_iff.mpr free
      rw [none]
      simp
  | some p =>
    obtain ⟨old, ms'⟩ := p
    have done : put index m ms =
        (sort ms', if old = m.movedTo i then .unchanged else .replaced) := by
      unfold SourceMapping.movedTo at found ⊢
      simp only [put, ← hi, found]
    rw [done]
    obtain ⟨held, updated, indexes⟩ := slots_replace found
    have distinct : (ms'.map (·.index)).Nodup := indexes ▸ h.nodup
    refine ⟨pairwise_sort distinct, ?_, ?_⟩
    · exact (slots_of_perm distinct (perm_sort _)).trans updated
    · have held : slots ms i = some old := held
      rw [held, Option.some.injEq]
      by_cases same : old = m.movedTo i <;> simp [same]

/-! ## Free indexes -/

/-- Where a mapping goes: to its own index, else above the highest index that is held, else to the
    first. -/
inductive Lands (held : Int → Option SourceMapping) : Option Int → Int → Prop where
  | own (i : Int) : Lands held (some i) i
  | above {i : Int} (highest : IsGreatest {j | held j ≠ none} i) : Lands held none (i + 1)
  | first (empty : ∀ j, held j = none) : Lands held none 1

theorem Lands.unique {held : Int → Option SourceMapping} {index : Option Int} {i j : Int}
    (hi : Lands held index i) (hj : Lands held index j) : i = j := by
  cases hi with
  | own => cases hj; rfl
  | above highest =>
    cases hj with
    | above highest' => rw [highest.unique highest']
    | first empty => exact absurd (empty _) highest.1
  | first empty =>
    cases hj with
    | above highest => exact absurd (empty _) highest.1
    | first => rfl

theorem lands_nextIndex (index : Option Int) (ms : List SourceMapping) :
    Lands (slots ms) index (index.getD (nextIndex ms)) := by
  cases index with
  | some i => exact .own i
  | none =>
    cases ms with
    | nil => exact .first fun _ => rfl
    | cons m ms =>
      have whole : {j | slots (m :: ms) j ≠ none} = {j | j = m.index ∨ ∃ n ∈ ms, n.index = j} := by
        ext j
        rw [Set.mem_ofPred_eq, ne_eq, slots_eq_none_iff]
        simp [imp_iff_not_or, eq_comm]
      refine .above ?_
      rw [whole]
      exact isGreatest_foldl_max SourceMapping.index ms m.index

/-! ## Putting the mappings of rows -/

/-- Puts the mapping of a row. -/
def putRow (ms : List SourceMapping) (row : MappingRow) : List SourceMapping :=
  (put row.mappingIndex row.mapping ms).1

/-- The index at which the mapping of a row is put. -/
def destination (ms : List SourceMapping) (row : MappingRow) : Int :=
  row.mappingIndex.getD (nextIndex ms)

/-- What the row puts is held already. -/
def Holds (ms : List SourceMapping) (row : MappingRow) : Prop :=
  slots ms (destination ms row) = some (row.mapping.movedTo (destination ms row))

section Row

variable (h : Ascending ms) (row : MappingRow)

include h

theorem ascending_putRow : Ascending (putRow ms row) :=
  (put_spec h row.mappingIndex row.mapping).1

theorem slots_putRow : slots (putRow ms row) =
    Function.update (slots ms) (destination ms row)
      (some (row.mapping.movedTo (destination ms row))) :=
  (put_spec h row.mappingIndex row.mapping).2.1

theorem unchanged_iff_holds :
    (put row.mappingIndex row.mapping ms).2 = .unchanged ↔ Holds ms row :=
  (put_spec h row.mappingIndex row.mapping).2.2

end Row

/-- Puts the mappings of rows one after the other. -/
def putAll (rows : List MappingRow) (ms : List SourceMapping) : List SourceMapping :=
  rows.foldl putRow ms

/-- Some row changes what is held when it is put. -/
def moves : List MappingRow → List SourceMapping → Bool
  | [], _ => false
  | row :: rows, ms =>
    (put row.mappingIndex row.mapping ms).2 ≠ .unchanged || moves rows (putRow ms row)

/-- What is held after rows have been applied in their order. -/
inductive Applied : (Int → Option SourceMapping) → List MappingRow →
    (Int → Option SourceMapping) → Prop where
  | none (held : Int → Option SourceMapping) : Applied held [] held
  | row {held held' : Int → Option SourceMapping} {row : MappingRow} {rows : List MappingRow}
      {i : Int} (lands : Lands held row.mappingIndex i)
      (rest : Applied (Function.update held i (some (row.mapping.movedTo i))) rows held') :
      Applied held (row :: rows) held'

theorem Applied.unique {held : Int → Option SourceMapping} {rows : List MappingRow}
    {held₁ held₂ : Int → Option SourceMapping} (h₁ : Applied held rows held₁)
    (h₂ : Applied held rows held₂) : held₁ = held₂ := by
  induction h₁ with
  | none => cases h₂; rfl
  | row lands _ ih =>
    cases h₂ with
    | row lands' rest => exact ih (lands.unique lands' ▸ rest)

theorem ascending_putAll (rows : List MappingRow) (h : Ascending ms) :
    Ascending (putAll rows ms) := by
  induction rows generalizing ms with
  | nil => exact h
  | cons row rows ih => exact ih (ascending_putRow h row)

/-- Putting the mappings of rows applies the rows. -/
theorem applied_putAll (rows : List MappingRow) (h : Ascending ms) :
    Applied (slots ms) rows (slots (putAll rows ms)) := by
  induction rows generalizing ms with
  | nil => exact .none _
  | cons row rows ih =>
    refine .row (lands_nextIndex row.mappingIndex ms) ?_
    have rest := ih (ascending_putRow h row)
    rwa [slots_putRow h] at rest

/-! ## Putting rows again -/

theorem putRow_of_holds (h : Ascending ms) {row : MappingRow} (held : Holds ms row) :
    putRow ms row = ms := by
  refine eq_of_slots (ascending_putRow h row) h ?_
  rw [slots_putRow h, ← held, Function.update_eq_self]

/-- No row changes what is held exactly if every row puts what is held already. -/
theorem moves_eq_false_iff (rows : List MappingRow) (h : Ascending ms) :
    moves rows ms = false ↔ ∀ row ∈ rows, Holds ms row := by
  induction rows with
  | nil => simp [moves]
  | cons row rows ih =>
    rw [moves, Bool.or_eq_false_iff, List.forall_mem_cons, decide_eq_false_iff_not, not_not,
      unchanged_iff_holds h]
    refine and_congr_right fun held => ?_
    rw [putRow_of_holds h held, ih]

theorem putAll_of_holds {rows : List MappingRow} (h : Ascending ms)
    (held : ∀ row ∈ rows, Holds ms row) : putAll rows ms = ms := by
  induction rows with
  | nil => rfl
  | cons row rows ih =>
    obtain ⟨first, others⟩ := List.forall_mem_cons.mp held
    rw [putAll, List.foldl_cons, putRow_of_holds h first]
    exact ih others

section Indexed

variable {rows : List MappingRow}

/-- The mapping of the last row with an index. -/
def lastAt (rows : List MappingRow) (i : Int) : Option SourceMapping :=
  (rows.filter (·.mappingIndex = some i)).getLast?.map (·.mapping.movedTo i)

theorem lastAt_cons (row : MappingRow) (rows : List MappingRow) (i : Int) :
    lastAt (row :: rows) i = (lastAt rows i).or
      (if row.mappingIndex = some i then some (row.mapping.movedTo i) else none) := by
  unfold lastAt
  rw [List.filter_cons]
  split
  · rename_i own
    rw [if_pos (by simpa using own), List.getLast?_cons]
    cases (rows.filter (·.mappingIndex = some i)).getLast? <;> rfl
  · rename_i other
    rw [if_neg (by simpa using other), Option.or_none]

theorem exists_of_lastAt {i : Int} (h : lastAt rows i = some m) :
    ∃ row ∈ rows, row.mappingIndex = some i ∧ row.mapping.movedTo i = m := by
  obtain ⟨row, last, moved⟩ := Option.map_eq_some_iff.mp h
  obtain ⟨mem, own⟩ := List.mem_filter.mp (List.mem_of_getLast? last)
  exact ⟨row, mem, by simpa using own, moved⟩

theorem lastAt_isSome {row : MappingRow} (mem : row ∈ rows) {i : Int}
    (own : row.mappingIndex = some i) : ∃ m, lastAt rows i = some m := by
  have among : row ∈ rows.filter (·.mappingIndex = some i) :=
    List.mem_filter.mpr ⟨mem, by simpa using own⟩
  exact ⟨_, by rw [lastAt, List.getLast?_eq_getLast_of_ne_nil (List.ne_nil_of_mem among)]; rfl⟩

variable (h : Ascending ms) (indexed : ∀ row ∈ rows, row.mappingIndex ≠ none)

include h indexed

/-- At each index the last row counts, and where there is none, what was held before. -/
theorem slots_putAll (i : Int) :
    slots (putAll rows ms) i = (lastAt rows i).or (slots ms i) := by
  induction rows generalizing ms with
  | nil => rfl
  | cons row rows ih =>
    obtain ⟨own, others⟩ := List.forall_mem_cons.mp indexed
    obtain ⟨k, hk⟩ := Option.ne_none_iff_exists'.mp own
    rw [putAll, List.foldl_cons, ← putAll, ih (ascending_putRow h row) others, slots_putRow h,
      lastAt_cons, destination, hk, Option.getD_some]
    by_cases here : i = k
    · subst here
      rw [Function.update_self, if_pos rfl]
      cases lastAt rows i <;> rfl
    · rw [Function.update_of_ne here, if_neg (by simpa using Ne.symm here), Option.or_none]

/-- Putting rows again changes no list. -/
theorem putAll_putAll : putAll rows (putAll rows ms) = putAll rows ms := by
  have ascending := ascending_putAll rows h
  refine eq_of_slots (ascending_putAll rows ascending) ascending ?_
  funext i
  rw [slots_putAll ascending indexed, slots_putAll h indexed]
  cases lastAt rows i <;> rfl

end Indexed

/-- Two rows have the same index, and mappings that differ in more than the index. -/
def Contested (rows : List MappingRow) : Prop :=
  ∃ a ∈ rows, ∃ b ∈ rows, a.mappingIndex = b.mappingIndex ∧
    b.mapping.movedTo a.mapping.index ≠ a.mapping

instance (rows : List MappingRow) : Decidable (Contested rows) :=
  inferInstanceAs (Decidable (∃ a ∈ rows, ∃ b ∈ rows, _ ∧ _))

/-- Rows with indexes change something when they are put again exactly if some of them are
    contested. -/
theorem moves_putAll_iff {rows : List MappingRow} (h : Ascending ms)
    (indexed : ∀ row ∈ rows, row.mappingIndex ≠ none) :
    moves rows (putAll rows ms) = true ↔ Contested rows := by
  have still : moves rows (putAll rows ms) = false ↔
      ∀ row ∈ rows, ∀ i, row.mappingIndex = some i →
        lastAt rows i = some (row.mapping.movedTo i) := by
    rw [moves_eq_false_iff rows (ascending_putAll rows h)]
    refine forall₂_congr fun row mem => ?_
    obtain ⟨k, hk⟩ := Option.ne_none_iff_exists'.mp (indexed row mem)
    obtain ⟨m, last⟩ := lastAt_isSome mem hk
    rw [Holds, destination, hk, Option.getD_some, slots_putAll h indexed, last, Option.some_or]
    simp [last]
  rw [← Bool.not_eq_false, still]
  -- what is held at an index comes from its last row, so the two that disagree are found there
  constructor
  · intro moving
    push Not at moving
    obtain ⟨a, ha, i, own, ne⟩ := moving
    obtain ⟨m, last⟩ := lastAt_isSome ha own
    obtain ⟨b, hb, own', rfl⟩ := exists_of_lastAt last
    refine ⟨a, ha, b, hb, own.trans own'.symm, fun same => ne ?_⟩
    rw [last, SourceMapping.movedTo_eq_iff.mpr same]
  · rintro ⟨a, ha, b, hb, same, differ⟩ held
    obtain ⟨i, own⟩ := Option.ne_none_iff_exists'.mp (indexed a ha)
    have both := (held a ha i own).symm.trans (held b hb i (same ▸ own))
    exact differ (SourceMapping.movedTo_eq_iff.mp (Option.some.inj both))

end MappingList

end Rollup

import Mathlib.Data.List.Basic
import Rollup.Proofs.Import.Conflicts
import Rollup.Proofs.Import.Keys
import Rollup.Proofs.RowGroup.Accounting

/-!
# Conflicts by row number

A conflict can be told by the number of the leading row of its group, and be taken back to the group
by that number. As no row leads two groups, this finds the same groups as their positions do.

Results:

* `numbers_group`: the groups of a file are led by rows with distinct numbers.
* `repeated_eq`, `taken_eq`: the groups found by the numbers of their leading rows.
-/

namespace Rollup

namespace Conflict

variable {κ μ : Type}

/-- Repeats go by the ids alone. -/
theorem repeatsAfter_map (f : κ → μ) (keys : List (κ × String)) : ∀ seen : List String,
    repeatsAfter seen (keys.map (Prod.map f id)) =
      (repeatsAfter seen keys).map (Prod.map f id) := by
  induction keys with
  | nil => intro seen; rfl
  | cons q keys ih =>
    intro seen
    rw [List.map_cons, repeatsAfter, repeatsAfter, Prod.map_snd, id]
    split
    · rw [ih, List.map_cons]
    · exact ih _

theorem existing_map (ids : List String) (f : κ → μ) (keys : List (κ × String)) :
    existing ids (keys.map (Prod.map f id)) = (existing ids keys).map (Prod.map f id) :=
  List.filter_map

end Conflict

/-- The groups of a file are led by rows with distinct numbers. -/
theorem Dialect.numbers_group {d : Dialect} {w : Window} {rows : List HierarchyRow}
    (distinct : (rows.map (·.number)).Nodup) : ((d.group w rows).1.map (·.number)).Nodup := by
  have leaders : ∀ {κ : Type} [DecidableEq κ] {key : HierarchyRow → Option κ}
      {groups : List RowGroup}, KeyedBy key rows groups → (groups.map (·.number)).Nodup := by
    intro κ _ key groups keyed
    rw [List.Nodup, List.pairwise_map]
    refine keyed.apart.imp_of_mem fun {g g'} hg hg' disjoint same => ?_
    have lead : g.leader ∈ g.rows := List.mem_cons_self
    have lead' : g'.leader ∈ g'.rows := List.mem_cons_self
    refine disjoint g.leader lead ?_
    rwa [List.inj_on_of_nodup_map distinct (keyed.mem_rows hg lead) (keyed.mem_rows hg' lead') same]
  cases d with
  | standard => exact leaders (RowGroup.Standard.keyedBy_group w rows)
  | legacy => exact leaders (RowGroup.Legacy.keyedBy_group w rows)

namespace ImportPlan

/-- The hierarchy ids of the groups, by the numbers of their leading rows. -/
def rowKeys (p : ImportPlan) : List (Nat × String) :=
  p.groups.map fun g => (g.number, g.hierarchyId)

/-- The position of the group that is led by the row with a number; of several the last one. -/
def ledBy? (p : ImportPlan) (number : Nat) : Option Nat :=
  (p.groups.zipIdx.findRev? fun q => q.1.number == number).map (·.2)

/-- The positions of the groups whose hierarchy id an earlier group has. -/
def repeated (p : ImportPlan) : List Nat :=
  (Conflict.repeats p.rowKeys).filterMap fun key => p.ledBy? key.1

/-- The positions of the other groups whose hierarchy id is among the stored ones. -/
def taken (p : ImportPlan) (ids : List String) : List Nat :=
  ((Conflict.existing ids p.rowKeys).filterMap fun key => p.ledBy? key.1).filter
    (· ∉ p.repeated)

/-- The number of the row that leads the group at a position. -/
def numberAt (p : ImportPlan) (gi : Nat) : Nat :=
  ((p.groups[gi]?).map (·.number)).getD 0

section Matching

variable {p : ImportPlan}

theorem rowKeys_eq (p : ImportPlan) : p.rowKeys = p.keys.map (Prod.map p.numberAt id) := by
  refine List.ext_getElem? fun i => ?_
  rw [rowKeys, keys, List.map_map, List.getElem?_map, List.getElem?_map, List.getElem?_zipIdx]
  cases hg : p.groups[i]? with
  | none => rfl
  | some g => simp [numberAt, hg]

/-- The groups that are stored already, by their positions. -/
theorem map_fst_existing (p : ImportPlan) (stored : List Node) :
    (p.existing (Batch.ofStored stored)).map (·.1) =
      (p.keys.filter fun key => !p.isRepeat key.1 &&
        (stored.map (·.hierarchyId)).contains key.2).map (·.1) := by
  have looked : p.existing (Batch.ofStored stored) =
      (p.keys.filter fun key => !p.repeats.contains key).filterMap fun key =>
        ((Batch.storedKeys stored 0).id? key.2).map fun position => (key.1, position) := by
    rw [← Batch.stored_ofStored]
    rfl
  have found : ∀ h : String, ((Batch.storedKeys stored 0).id? h).isSome =
      (stored.map (·.hierarchyId)).contains h := by
    intro h
    rw [Bool.eq_iff_iff, Batch.storedKeys_id?_isSome, List.contains_iff_mem]
  rw [looked, List.map_filterMap, ← List.filterMap_eq_filter, ← List.filterMap_eq_filter,
    List.filterMap_filterMap, List.map_filterMap]
  refine List.filterMap_congr fun key mem => ?_
  have again : p.repeats.contains key = p.isRepeat key.1 := p.contains_repeats mem
  simp only [Option.guard, ← found, again]
  cases p.isRepeat key.1 <;> cases hid : (Batch.storedKeys stored 0).id? key.2 <;> simp [hid]

variable (distinct : (p.groups.map (·.number)).Nodup)

include distinct

/-- The number of a leading row leads back to its group. -/
theorem ledBy?_numberAt {gi : Nat} {h : String} (mem : (gi, h) ∈ p.keys) :
    p.ledBy? (p.numberAt gi) = some gi := by
  obtain ⟨g, hg, -⟩ := p.mem_keys_iff.mp mem
  have number : p.numberAt gi = g.number := by rw [numberAt, hg]; rfl
  rw [ledBy?, number, List.findRev?_eq_find?_reverse, Option.map_eq_some_iff]
  cases found : p.groups.zipIdx.reverse.find? fun q => q.1.number == g.number with
  | none =>
    rw [List.find?_eq_none] at found
    exact absurd (beq_self_eq_true g.number)
      (found (g, gi) (List.mem_reverse.mpr (List.mem_zipIdx_iff_getElem?.mpr hg)))
  | some q =>
    have there := List.mem_zipIdx_iff_getElem?.mp
      (List.mem_reverse.mp (List.mem_of_find?_eq_some found))
    have same := List.find?_some found
    rw [beq_iff_eq] at same
    refine ⟨q, rfl, ?_⟩
    have bound : q.2 < (p.groups.map (·.number)).length := by
      rw [List.length_map]
      exact (List.getElem?_eq_some_iff.mp there).1
    refine (List.getElem?_inj bound distinct).mp ?_
    rw [List.getElem?_map, List.getElem?_map, there, hg, Option.map_some, Option.map_some, same]

theorem filterMap_ledBy? {keys : List (Nat × String)} (sub : ∀ key ∈ keys, key ∈ p.keys) :
    ((keys.map (Prod.map p.numberAt id)).filterMap fun key => p.ledBy? key.1) = keys.map (·.1) := by
  rw [List.filterMap_map, ← List.filterMap_eq_map]
  exact List.filterMap_congr fun key mem => ledBy?_numberAt distinct (sub key mem)

theorem repeated_eq : p.repeated = p.repeats.map (·.1) := by
  rw [repeated, Conflict.repeats, rowKeys_eq, Conflict.repeatsAfter_map]
  exact filterMap_ledBy? distinct (Conflict.repeatsAfter_sublist p.keys []).subset

theorem mem_repeated_iff {gi : Nat} : gi ∈ p.repeated ↔ p.isRepeat gi = true := by
  rw [repeated_eq distinct, isRepeat, List.any_eq_true, List.mem_map]
  simp only [beq_iff_eq]

theorem taken_eq (stored : List Node) :
    p.taken (stored.map (·.hierarchyId)) = (p.existing (Batch.ofStored stored)).map (·.1) := by
  have matched : ((Conflict.existing (stored.map (·.hierarchyId)) p.rowKeys).filterMap
      fun key => p.ledBy? key.1) =
        (Conflict.existing (stored.map (·.hierarchyId)) p.keys).map (·.1) := by
    rw [rowKeys_eq, Conflict.existing_map]
    exact filterMap_ledBy? distinct fun key mem => List.mem_of_mem_filter mem
  rw [taken, matched, map_fst_existing, List.filter_map, Conflict.existing, List.filter_filter]
  congr 1
  refine List.filter_congr fun key _ => ?_
  simp [mem_repeated_iff distinct]

end Matching

end ImportPlan

end Rollup

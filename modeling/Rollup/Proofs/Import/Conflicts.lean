import Mathlib.Data.List.Nodup
import Mathlib.Tactic.SplitIfs
import Rollup.Proofs.Import.Keys

/-!
# Which groups become nodes

A group is skipped if an earlier group of the file has its hierarchy id, or if the id is stored.
All other groups become new nodes.

Results:

* `isRepeat_iff`: a repeated group has the hierarchy id of an earlier one.
* `lookup_existing`: the stored node of a group that is not repeated.
* `nodup_newGroups`: new groups have distinct hierarchy ids, and none of them is stored.
* `length_groups`: every group is repeated, stored or new.
-/

namespace Rollup

/-! ## Repeated ids -/

namespace Conflict

/-- An id is repeated if it was seen before the list, or earlier in it. -/
theorem mem_repeatsAfter_iff {κ : Type} {k : κ} {h : String} (keys : List (κ × String)) :
    ∀ seen : List String, (k, h) ∈ repeatsAfter seen keys ↔
      ∃ m, keys[m]? = some (k, h) ∧ (h ∈ seen ∨ h ∈ (keys.take m).map (·.2)) := by
  induction keys with
  | nil => intro seen; simp [repeatsAfter]
  | cons q keys ih =>
    intro seen
    rw [repeatsAfter]
    split_ifs with known
    · rw [List.mem_cons, ih]
      constructor
      · rintro (rfl | ⟨m, found, before⟩)
        · exact ⟨0, rfl, Or.inl known⟩
        · exact ⟨m + 1, found, before.imp_right (List.mem_cons_of_mem _)⟩
      · rintro ⟨_ | m, found, before⟩
        · exact Or.inl (Option.some.inj found).symm
        · refine Or.inr ⟨m, found, ?_⟩
          rcases before with before | before
          · exact Or.inl before
          · rcases List.mem_cons.mp before with rfl | before
            · exact Or.inl known
            · exact Or.inr before
    · rw [ih]
      constructor
      · rintro ⟨m, found, before⟩
        refine ⟨m + 1, found, ?_⟩
        rw [List.take_succ_cons, List.map_cons, List.mem_cons, or_left_comm, ← or_assoc]
        rwa [List.mem_cons] at before
      · rintro ⟨_ | m, found, before⟩
        · obtain rfl : q = (k, h) := Option.some.inj found
          exact absurd before (by simpa using known)
        · refine ⟨m, found, ?_⟩
          rw [List.take_succ_cons, List.map_cons, List.mem_cons, or_left_comm, ← or_assoc] at before
          rw [List.mem_cons]
          exact before

theorem repeatsAfter_sublist {κ : Type} (keys : List (κ × String)) : ∀ seen : List String,
    (repeatsAfter seen keys).Sublist keys := by
  induction keys with
  | nil => intro seen; exact List.Sublist.refl _
  | cons q keys ih =>
    intro seen
    rw [repeatsAfter]
    split_ifs
    · exact (ih seen).cons_cons q
    · exact (ih _).cons q

end Conflict

/-! ## Repeated, stored and new groups -/

namespace ImportPlan

variable (p : ImportPlan) (b : Batch)

/-- Whether the group at a position is skipped as a repeat. -/
def isRepeat (gi : Nat) : Bool :=
  p.repeats.any (·.1 == gi)

/-- Whether the group at a position becomes a new node. -/
def isNew (gi : Nat) : Bool :=
  !p.isRepeat gi && ((p.existing b).lookup gi).isNone

/-- The groups that become new nodes, with their positions in the file. -/
def newGroups : List (RowGroup × Nat) :=
  p.groups.zipIdx.filter fun q => p.isNew b q.2

theorem getElem?_keys_eq_some_iff {gi i : Nat} {h : String} : p.keys[i]? = some (gi, h) ↔
    i = gi ∧ ∃ g, p.groups[gi]? = some g ∧ g.hierarchyId = h := by
  rw [keys, List.getElem?_map, List.getElem?_zipIdx, Option.map_map, Option.map_eq_some_iff]
  constructor
  · rintro ⟨g, hg, eq⟩
    obtain ⟨index, id⟩ := Prod.mk.inj eq
    rw [Nat.zero_add] at index
    exact ⟨index, g, index ▸ hg, id⟩
  · rintro ⟨rfl, g, hg, rfl⟩
    exact ⟨g, hg, by simp⟩

theorem map_snd_keys : p.keys.map (·.2) = p.groups.map (·.hierarchyId) := by
  rw [keys, List.map_map, ← map_zipIdx_fst (·.hierarchyId) p.groups]
  rfl

theorem mem_repeats_iff (gi : Nat) (h : String) : (gi, h) ∈ p.repeats ↔
    ∃ g, p.groups[gi]? = some g ∧ g.hierarchyId = h ∧
      ∃ j < gi, ∃ g', p.groups[j]? = some g' ∧ g'.hierarchyId = h := by
  have earlier : ∀ m, h ∈ (p.keys.take m).map (·.2) ↔
      ∃ j < m, ∃ g', p.groups[j]? = some g' ∧ g'.hierarchyId = h := by
    intro m
    rw [List.map_take, map_snd_keys, List.mem_iff_getElem?]
    refine exists_congr fun j => ?_
    rw [List.getElem?_take, Option.ite_none_right_eq_some, List.getElem?_map,
      Option.map_eq_some_iff]
  rw [repeats, Conflict.repeats, Conflict.mem_repeatsAfter_iff]
  simp only [getElem?_keys_eq_some_iff, earlier, List.not_mem_nil, false_or]
  constructor
  · rintro ⟨m, ⟨rfl, g, hg, id⟩, before⟩
    exact ⟨g, hg, id, before⟩
  · rintro ⟨g, hg, id, before⟩
    exact ⟨gi, ⟨rfl, g, hg, id⟩, before⟩

theorem isRepeat_iff (gi : Nat) : p.isRepeat gi = true ↔
    ∃ g, p.groups[gi]? = some g ∧
      ∃ j < gi, ∃ g', p.groups[j]? = some g' ∧ g'.hierarchyId = g.hierarchyId := by
  rw [isRepeat, List.any_eq_true]
  constructor
  · rintro ⟨⟨i, h⟩, hq, he⟩
    rw [beq_iff_eq] at he
    subst he
    obtain ⟨g, hg, rfl, hj⟩ := (p.mem_repeats_iff i h).mp hq
    exact ⟨g, hg, hj⟩
  · rintro ⟨g, hg, hj⟩
    exact ⟨(gi, g.hierarchyId), (p.mem_repeats_iff gi _).mpr ⟨g, hg, rfl, hj⟩, beq_self_eq_true gi⟩

theorem mem_keys_iff {gi : Nat} {h : String} :
    (gi, h) ∈ p.keys ↔ ∃ g, p.groups[gi]? = some g ∧ g.hierarchyId = h := by
  rw [keys, List.mem_map]
  constructor
  · rintro ⟨⟨g, i⟩, hq, e⟩
    cases e
    exact ⟨g, List.mem_zipIdx_iff_getElem?.mp hq, rfl⟩
  · rintro ⟨g, hg, rfl⟩
    exact ⟨(g, gi), List.mem_zipIdx_iff_getElem?.mpr hg, rfl⟩

theorem contains_repeats {gi : Nat} {h : String} (mem : (gi, h) ∈ p.keys) :
    p.repeats.contains (gi, h) = p.isRepeat gi := by
  obtain ⟨g, hg, rfl⟩ := p.mem_keys_iff.mp mem
  rw [Bool.eq_iff_iff, List.contains_iff_mem, mem_repeats_iff, isRepeat_iff]
  constructor
  · rintro ⟨g', hg', hk, hj⟩
    rw [hg] at hg'
    cases hg'
    exact ⟨g, hg, hj⟩
  · rintro ⟨g', hg', hj⟩
    rw [hg] at hg'
    cases hg'
    exact ⟨g, hg, rfl, hj⟩

theorem map_fst_keys : p.keys.map (·.1) = List.range p.groups.length := by
  rw [keys, List.map_map, List.range_eq_range']
  exact List.zipIdx_map_snd 0 p.groups

theorem mem_existing_iff {gi position : Nat} : (gi, position) ∈ p.existing b ↔
    ∃ g, p.groups[gi]? = some g ∧ p.isRepeat gi = false ∧
      b.stored.id? g.hierarchyId = some position := by
  rw [existing, List.mem_filterMap]
  constructor
  · rintro ⟨⟨i, h⟩, hq, he⟩
    obtain ⟨mem, fresh⟩ := List.mem_filter.mp hq
    obtain ⟨_, found, same⟩ := Option.map_eq_some_iff.mp he
    cases same
    rw [p.contains_repeats mem, Bool.not_eq_true'] at fresh
    obtain ⟨g, hg, rfl⟩ := p.mem_keys_iff.mp mem
    exact ⟨g, hg, fresh, found⟩
  · rintro ⟨g, hg, fresh, found⟩
    have mem : (gi, g.hierarchyId) ∈ p.keys := p.mem_keys_iff.mpr ⟨g, hg, rfl⟩
    refine ⟨(gi, g.hierarchyId), List.mem_filter.mpr ⟨mem, ?_⟩, ?_⟩
    · rw [p.contains_repeats mem, fresh]
      rfl
    · dsimp only
      rw [found, Option.map_some]

/-- The stored node of a group that is not repeated. -/
theorem lookup_existing (gi : Nat) : (p.existing b).lookup gi =
    (p.groups[gi]?).bind fun g =>
      if p.isRepeat gi then none else b.stored.id? g.hierarchyId := by
  have lookup_iff : ∀ position, (p.existing b).lookup gi = some position ↔
      (gi, position) ∈ p.existing b := by
    refine fun position => ⟨mem_of_lookup, fun mem => lookup_of_unique mem fun other mem' => ?_⟩
    obtain ⟨g, hg, -, found⟩ := (p.mem_existing_iff b).mp mem
    obtain ⟨g', hg', -, found'⟩ := (p.mem_existing_iff b).mp mem'
    obtain rfl : g = g' := Option.some.inj (hg.symm.trans hg')
    exact Option.some.inj (found'.symm.trans found)
  ext position
  rw [lookup_iff, mem_existing_iff, Option.bind_eq_some_iff]
  refine exists_congr fun g => and_congr_right fun _ => ?_
  cases p.isRepeat gi <;> simp

theorem isNew_iff {gi : Nat} {g : RowGroup} (hg : p.groups[gi]? = some g) :
    p.isNew b gi = true ↔ p.isRepeat gi = false ∧ b.stored.id? g.hierarchyId = none := by
  rw [isNew, lookup_existing, hg, Option.bind_some, Bool.and_eq_true, Bool.not_eq_true',
    Option.isNone_iff_eq_none]
  refine and_congr_right fun rep => ?_
  rw [rep, if_neg (by simp)]

theorem mem_newGroups_iff {g : RowGroup} {gi : Nat} : (g, gi) ∈ p.newGroups b ↔
    p.groups[gi]? = some g ∧ p.isRepeat gi = false ∧ b.stored.id? g.hierarchyId = none := by
  rw [newGroups, List.mem_filter, List.mem_zipIdx_iff_getElem?]
  exact and_congr_right fun hg => p.isNew_iff b hg

theorem mem_groups_of_newGroups {q : RowGroup × Nat} (mem : q ∈ p.newGroups b) :
    q.1 ∈ p.groups :=
  List.mem_of_getElem? ((p.mem_newGroups_iff b).mp mem).1

/-- New groups have distinct hierarchy ids. -/
theorem nodup_newGroups : ((p.newGroups b).map (·.1.hierarchyId)).Nodup := by
  have ascending : p.groups.zipIdx.Pairwise fun q r => q.2 < r.2 := by
    have := List.pairwise_lt_range' (s := 0) (n := p.groups.length)
    rw [← List.zipIdx_map_snd 0 p.groups, List.pairwise_map] at this
    exact this
  rw [List.Nodup, List.pairwise_map]
  refine List.Pairwise.imp_of_mem ?_ (ascending.sublist List.filter_sublist)
  rintro ⟨g, i⟩ ⟨g', j⟩ hq hr hij same
  obtain ⟨hg, -, -⟩ := (p.mem_newGroups_iff b).mp hq
  obtain ⟨hg', rep, -⟩ := (p.mem_newGroups_iff b).mp hr
  have : p.isRepeat j = true := (p.isRepeat_iff j).mpr ⟨g', hg', i, hij, g, hg, same⟩
  rw [this] at rep
  cases rep

/-- The hierarchy id of every group is that of a new group, or it is stored. -/
theorem exists_newGroup_of_id {g : RowGroup} (mem : g ∈ p.groups) :
    (b.stored.id? g.hierarchyId).isSome = true ∨
      ∃ q ∈ p.newGroups b, q.1.hierarchyId = g.hierarchyId := by
  obtain ⟨gi, hg⟩ := List.getElem?_of_mem mem
  clear mem
  -- the first group with this id is not a repeat
  induction gi using Nat.strongRecOn generalizing g with
  | ind gi ih =>
    by_cases rep : p.isRepeat gi = true
    · obtain ⟨g₁, hg₁, j, hj, g₂, hg₂, same⟩ := (p.isRepeat_iff gi).mp rep
      rw [hg] at hg₁
      cases hg₁
      rw [← same]
      exact ih j hj hg₂
    · cases hid : b.stored.id? g.hierarchyId with
      | some i => exact Or.inl rfl
      | none =>
        exact Or.inr ⟨(g, gi), (p.mem_newGroups_iff b).mpr ⟨hg, by simpa using rep, hid⟩, rfl⟩

/-! ## Counting groups -/

theorem length_repeats : p.repeats.length = p.keys.countP fun q => p.isRepeat q.1 := by
  have nodup : p.keys.Nodup := by
    refine List.Nodup.of_map (·.1) ?_
    rw [map_fst_keys]
    exact List.nodup_range
  have sub : p.repeats.Sublist p.keys := Conflict.repeatsAfter_sublist p.keys []
  have perm : p.repeats.Perm (p.keys.filter fun q => p.isRepeat q.1) := by
    rw [List.perm_ext_iff_of_nodup (nodup.sublist sub) (nodup.filter _)]
    rintro ⟨gi, h⟩
    rw [List.mem_filter]
    constructor
    · intro mem
      refine ⟨sub.subset mem, ?_⟩
      rw [← p.contains_repeats (sub.subset mem)]
      exact List.contains_iff_mem.mpr mem
    · rintro ⟨mem, rep⟩
      rw [← p.contains_repeats mem] at rep
      exact List.contains_iff_mem.mp rep
  rw [perm.length_eq, List.countP_eq_length_filter]

theorem length_existing : (p.existing b).length =
    p.keys.countP fun q => !p.isRepeat q.1 && (b.stored.id? q.2).isSome := by
  have eq : p.existing b = (p.keys.filter fun key => !p.repeats.contains key).filterMap fun q =>
      (b.stored.id? q.2).map fun position => (q.1, position) := rfl
  have plain : (p.keys.filter fun key => !p.repeats.contains key) =
      p.keys.filter fun q => !p.isRepeat q.1 := by
    refine List.filter_congr fun q hq => ?_
    rw [p.contains_repeats hq]
  rw [eq, plain, List.length_filterMap_eq_countP, List.countP_filter]
  refine List.countP_congr fun q _ => ?_
  simp [Bool.and_comm]

theorem length_newGroups : (p.newGroups b).length =
    p.keys.countP fun q => !p.isRepeat q.1 && (b.stored.id? q.2).isNone := by
  rw [keys, List.countP_map, newGroups, ← List.countP_eq_length_filter]
  refine List.countP_congr ?_
  rintro ⟨g, gi⟩ hq
  have hg := List.mem_zipIdx_iff_getElem?.mp hq
  simp only [Function.comp_apply, p.isNew_iff b hg, Bool.and_eq_true, Bool.not_eq_true',
    Option.isNone_iff_eq_none]

/-- Every group is repeated, stored or new. -/
theorem length_groups : p.repeats.length + (p.existing b).length + (p.newGroups b).length =
    p.groups.length := by
  have total : p.keys.length = p.groups.length := by rw [keys, List.length_map, List.length_zipIdx]
  rw [length_repeats, length_existing, length_newGroups, ← total]
  generalize p.keys = keys
  induction keys with
  | nil => rfl
  | cons q keys ih =>
    rw [List.countP_cons, List.countP_cons, List.countP_cons, List.length_cons]
    cases p.isRepeat q.1 <;> cases b.stored.id? q.2 <;> simp <;> omega

end ImportPlan

end Rollup

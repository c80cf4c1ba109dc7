import Mathlib.Data.List.Basic
import Mathlib.Data.List.Forall2
import Mathlib.Data.List.Perm.Basic
import Rollup.Proofs.Buckets
import Rollup.RowGroup.Total

/-!
# Labels of totals

Which totals a list of groups calls for, said of the rows that carry a label: how many groups they
are in, which of them state an aggregation, and whether a group has several of them.

Results:

* `usesOf_eq`, `distinct_group_usesOf`: the uses of a label are the rows that carry it.
* `ofLabel_eq_ok_iff`, `exists_warning_of_ambiguous`: when a label is a total, and when it is warned
  about.
* `planIn_alike`: the order in which repeats are searched decides at most which group a warning names.
* `getLast?_plan_iff`: the last total that is planned for a group.
* `IsTotal.perm_carriers`: a total joins all groups that carry its label.
-/

namespace Rollup

/-! ## Lists -/

section Lists

variable {β κ : Type} [DecidableEq κ]

/-- The last value that a partial function has on a list without repeats. -/
theorem getLast?_filterMap_eq_some_iff {f : κ → Option β} {xs : List κ} (nodup : xs.Nodup) {b : β} :
    (xs.filterMap f).getLast? = some b ↔ ∃ x ∈ xs, f x = some b ∧
      ∀ y ∈ xs, (f y).isSome → xs.idxOf y ≤ xs.idxOf x := by
  induction xs using List.reverseRecOn with
  | nil => simp
  | append_singleton xs z ih =>
    rw [List.nodup_append_comm, List.singleton_append, List.nodup_cons] at nodup
    have before : ∀ y ∈ xs, (xs ++ [z]).idxOf y = xs.idxOf y := fun y hy =>
      List.idxOf_append_of_mem hy
    have last : (xs ++ [z]).idxOf z = xs.length := by
      rw [List.idxOf_append_of_notMem nodup.1, List.idxOf_cons_self, Nat.add_zero]
    have bound : ∀ y ∈ xs ++ [z], (xs ++ [z]).idxOf y ≤ xs.length := by
      intro y hy
      have := List.idxOf_lt_length_of_mem hy
      rw [List.length_append, List.length_singleton] at this
      omega
    rw [List.filterMap_append, List.getLast?_append]
    cases value : f z with
    | some c =>
      simp only [List.filterMap_cons, value, List.filterMap_nil, List.getLast?_singleton,
        Option.some_or, Option.some.injEq]
      constructor
      · rintro rfl
        exact ⟨z, by simp, value, fun y hy _ => last ▸ bound y hy⟩
      · rintro ⟨x, hx, found, latest⟩
        have le := latest z (by simp) (by rw [value]; rfl)
        rcases List.mem_append.mp hx with hx | hx
        · -- the value at the end comes later
          have := List.idxOf_lt_length_of_mem hx
          rw [last, before x hx] at le
          omega
        · rw [List.mem_singleton.mp hx, value] at found
          exact Option.some.inj found
    | none =>
      simp only [List.filterMap_cons, value, List.filterMap_nil, List.getLast?_nil, Option.none_or]
      rw [ih nodup.2]
      constructor
      · rintro ⟨x, hx, found, latest⟩
        refine ⟨x, List.mem_append_left _ hx, found, fun y hy some => ?_⟩
        rcases List.mem_append.mp hy with hy | hy
        · rw [before y hy, before x hx]
          exact latest y hy some
        · rw [List.mem_singleton.mp hy, value] at some
          cases some
      · rintro ⟨x, hx, found, latest⟩
        rcases List.mem_append.mp hx with hx | hx
        · refine ⟨x, hx, found, fun y hy some => ?_⟩
          rw [← before y hy, ← before x hx]
          exact latest y (List.mem_append_left _ hy) some
        · rw [List.mem_singleton.mp hx, value] at found
          cases found

end Lists

/-! ## Rows with a label -/

/-- The rows of a group that carry a label. -/
def RowGroup.labelled (g : RowGroup) (label : String) : List HierarchyRow :=
  g.rows.filter (·.formula.groupName = some label)

namespace TotalPlan

variable {groups : List RowGroup} {label : String}

/-- All labels in the order in which they first appear. -/
def labels (groups : List RowGroup) : List String :=
  distinct ((groups.flatMap (·.rows)).filterMap (·.formula.groupName))

/-- The groups that carry a label, with their positions. -/
def carriers (groups : List RowGroup) (label : String) : List (RowGroup × Nat) :=
  groups.zipIdx.filter fun q => q.1.labelled label ≠ []

/-- The aggregations that stand next to a label, with the positions of their groups. -/
def aggregations (groups : List RowGroup) (label : String) : List (Nat × Operation) :=
  groups.zipIdx.flatMap fun q =>
    (q.1.labelled label).filterMap fun row => row.formula.aggregation.map fun op => (q.2, op)

/-- A label is the total of a group: several groups carry it, one row states an aggregation, which
    is in that group, and no group carries the label on several rows. -/
structure IsTotal (groups : List RowGroup) (label : String) (parent : Nat) (op : Operation) :
    Prop where
  shared : 2 ≤ (carriers groups label).length
  aggregated : aggregations groups label = [(parent, op)]
  once : ∀ g ∈ groups, (g.labelled label).length ≤ 1

instance (groups : List RowGroup) (label : String) (parent : Nat) (op : Operation) :
    Decidable (IsTotal groups label parent op) :=
  decidable_of_iff (2 ≤ (carriers groups label).length ∧
      aggregations groups label = [(parent, op)] ∧ ∀ g ∈ groups, (g.labelled label).length ≤ 1)
    ⟨fun ⟨shared, aggregated, once⟩ => ⟨shared, aggregated, once⟩,
      fun h => ⟨h.shared, h.aggregated, h.once⟩⟩

/-- A label is ambiguous: several groups carry it, and several rows state an aggregation, or one row
    does and a group carries the label on several rows. -/
structure Ambiguous (groups : List RowGroup) (label : String) : Prop where
  shared : 2 ≤ (carriers groups label).length
  unclear : 2 ≤ (aggregations groups label).length ∨
    (aggregations groups label).length = 1 ∧ ∃ g ∈ groups, 2 ≤ (g.labelled label).length

/-- The uses of one label. -/
def usesOf (groups : List RowGroup) (label : String) : List Use :=
  groups.zipIdx.flatMap fun q => (q.1.labelled label).map fun row => ⟨q.2, row.formula.aggregation⟩

theorem usesOf_eq (groups : List RowGroup) (label : String) :
    ((uses groups).filter (·.1 = label)).map (·.2) = usesOf groups label := by
  rw [uses, List.filter_flatMap, List.map_flatMap, usesOf]
  refine List.flatMap_congr fun q _ => ?_
  rw [RowGroup.labelled]
  induction q.1.rows with
  | nil => rfl
  | cons row rows ih =>
    cases name : row.formula.groupName with
    | none => simpa [name] using ih
    | some l => by_cases same : l = label <;> simpa [name, same] using ih

/-- A use of a label is one of its uses. -/
theorem mem_usesOf {u : Use} : u ∈ usesOf groups label ↔ (label, u) ∈ uses groups := by
  rw [← usesOf_eq]
  simp

theorem map_fst_uses (groups : List RowGroup) :
    (uses groups).map (·.1) = (groups.flatMap (·.rows)).filterMap (·.formula.groupName) := by
  have split : groups.flatMap (·.rows) = groups.zipIdx.flatMap (·.1.rows) := by
    conv_lhs => rw [← List.zipIdx_map_fst 0 groups, List.flatMap_map]
  rw [split, uses, List.map_flatMap, List.filterMap_flatMap]
  refine List.flatMap_congr fun q _ => ?_
  rw [List.map_filterMap]
  refine List.filterMap_congr fun row _ => ?_
  cases row.formula.groupName <;> rfl

theorem map_group_usesOf (groups : List RowGroup) (label : String) :
    (usesOf groups label).map (·.group) =
      groups.zipIdx.flatMap fun q => List.replicate (q.1.labelled label).length q.2 := by
  rw [usesOf, List.map_flatMap]
  refine List.flatMap_congr fun q _ => ?_
  rw [List.map_map]
  exact List.map_const'

theorem nodup_map_snd_zipIdx {α : Type} (xs : List α) : (xs.zipIdx.map (·.2)).Nodup := by
  rw [List.zipIdx_map_snd]
  exact List.nodup_range'

/-- The groups that use a label are those that carry it. -/
theorem distinct_group_usesOf (groups : List RowGroup) (label : String) :
    distinct ((usesOf groups label).map (·.group)) = (carriers groups label).map (·.2) := by
  rw [map_group_usesOf, distinct_flatMap_replicate _ _ _ (nodup_map_snd_zipIdx groups), carriers]
  simp

theorem aggregators_usesOf (groups : List RowGroup) (label : String) :
    ((usesOf groups label).filterMap fun u => u.aggregation.map fun op => (u.group, op)) =
      aggregations groups label := by
  rw [usesOf, List.filterMap_flatMap, aggregations]
  refine List.flatMap_congr fun q _ => ?_
  rw [List.filterMap_map]
  rfl

/-- A group that uses a label twice carries it on several rows. -/
theorem nodup_group_usesOf_iff : ((usesOf groups label).map (·.group)).Nodup ↔
    ∀ g ∈ groups, (g.labelled label).length ≤ 1 := by
  rw [map_group_usesOf, List.nodup_flatMap]
  constructor
  · rintro ⟨each, -⟩ g hg
    obtain ⟨i, hi⟩ := List.getElem?_of_mem hg
    exact List.nodup_replicate.mp (each (g, i) (List.mem_zipIdx_iff_getElem?.mpr hi))
  · intro once
    refine ⟨fun q hq => List.nodup_replicate.mpr
      (once q.1 (List.mem_of_getElem? (List.mem_zipIdx_iff_getElem?.mp hq))), ?_⟩
    have positions := nodup_map_snd_zipIdx groups
    rw [List.Nodup, List.pairwise_map] at positions
    refine positions.imp fun {q r} apart k hq hr => apart ?_
    exact (List.eq_of_mem_replicate hq).symm.trans (List.eq_of_mem_replicate hr)

theorem count_group (us : List Use) (g : Nat) :
    (us.map (·.group)).count g = (us.filter (·.group == g)).length := by
  rw [List.count, List.countP_map, List.countP_eq_length_filter]
  rfl

/-- In whatever order the groups are searched, no repeat is found only if there is none. -/
theorem repeated?_eq_none_iff {order : SearchOrder} {us : List Use} :
    repeated? order label us = none ↔ (us.map (·.group)).Nodup := by
  rw [repeated?, List.find?_eq_none, List.nodup_iff_count_le_one]
  constructor
  · intro none g
    by_cases mem : g ∈ us.map (·.group)
    · rw [count_group]
      simpa using none g ((order.perm label _).mem_iff.mpr (mem_distinct.mpr mem))
    · rw [List.count_eq_zero_of_not_mem mem]
      exact Nat.zero_le 1
  · intro once g _
    simpa using count_group us g ▸ once g

/-- A group carries a label on several rows. -/
def Repeats (groups : List RowGroup) (label : String) (i : Nat) : Prop :=
  ∃ g, groups[i]? = some g ∧ 2 ≤ (g.labelled label).length

/-- The group that is found does repeat the label. -/
theorem repeats_of_repeated? {order : SearchOrder} {i : Nat}
    (found : repeated? order label (usesOf groups label) = some i) : Repeats groups label i := by
  rw [repeated?] at found
  have several := List.find?_some found
  have used : i ∈ (carriers groups label).map (·.2) := by
    rw [← distinct_group_usesOf]
    exact (order.perm label _).mem_iff.mp (List.mem_of_find?_eq_some found)
  obtain ⟨q, hq, rfl⟩ := List.mem_map.mp used
  have here := List.mem_zipIdx_iff_getElem?.mp (List.mem_filter.mp hq).1
  refine ⟨q.1, here, ?_⟩
  -- every use by this group is one of its rows
  rw [decide_eq_true_eq, ← count_group, map_group_usesOf, count_flatMap_replicate (·.2) _
    (nodup_map_snd_zipIdx groups) (List.mem_filter.mp hq).1] at several
  exact several

/-! ## What a label amounts to -/

/-- The other groups that carry a label, as children of its total. -/
def childrenOf (groups : List RowGroup) (label : String) (parent : Nat) : List TotalChild :=
  ((carriers groups label).filter (·.2 ≠ parent)).map fun q => ⟨some q.1.hierarchyId, q.1.name⟩

/-- A label is planned as a total exactly if it is one. -/
theorem ofLabel_eq_ok_iff (order : SearchOrder) {t : TotalPlan} :
    ofLabel order groups label (usesOf groups label) = some (.ok t) ↔
      IsTotal groups label t.parent t.aggregation ∧ t.label = label ∧
        t.children = ((carriers groups label).map (·.2)).filter (· ≠ t.parent) := by
  unfold ofLabel
  dsimp only
  rw [distinct_group_usesOf, aggregators_usesOf, List.length_map]
  constructor
  · intro h
    split_ifs at h with few
    split at h
    · cases h
    · rename_i parent op aggregated
      split at h
      · cases h
      · rename_i single
        cases h
        exact ⟨⟨by omega, aggregated,
          nodup_group_usesOf_iff.mp (repeated?_eq_none_iff.mp single)⟩, rfl, rfl⟩
    · cases h
  · rintro ⟨total, rfl, children⟩
    have single : repeated? order t.label (usesOf groups t.label) = none :=
      repeated?_eq_none_iff.mpr (nodup_group_usesOf_iff.mpr total.once)
    have shared := total.shared
    rw [if_neg (by omega), total.aggregated]
    dsimp only
    rw [single, ← children]

/-- An ambiguous label is warned about. -/
theorem exists_error_of_ambiguous (order : SearchOrder) (h : Ambiguous groups label) : ∃ detail,
    ofLabel order groups label (usesOf groups label) =
      some (.error ("formula group '" ++ label ++ "': " ++ detail)) := by
  unfold ofLabel
  dsimp only
  have shared := h.shared
  rw [distinct_group_usesOf, aggregators_usesOf, List.length_map, if_neg (by omega)]
  split
  · rename_i none
    have unclear := h.unclear
    rw [none] at unclear
    simp at unclear
  · rename_i parent op aggregated
    obtain few | ⟨-, g, hg, repeated⟩ := h.unclear
    · rw [aggregated, List.length_singleton] at few
      omega
    · cases single : repeated? order label (usesOf groups label) with
      | some i => exact ⟨_, rfl⟩
      | none =>
        have := nodup_group_usesOf_iff.mp (repeated?_eq_none_iff.mp single) g hg
        omega
  · refine ⟨toString (aggregations groups label).length ++
      " rows carry AGGREGATION, total formula not created", ?_⟩
    simp only [String.append_assoc]

/-- The plan for a label, if it is a total. -/
def planned (groups : List RowGroup) (label : String) : Option TotalPlan :=
  (ofLabel .asUsed groups label (usesOf groups label)).bind Except.toOption

theorem planned_eq_some_iff {t : TotalPlan} : planned groups label = some t ↔
    IsTotal groups label t.parent t.aggregation ∧ t.label = label ∧
      t.children = ((carriers groups label).map (·.2)).filter (· ≠ t.parent) := by
  rw [← ofLabel_eq_ok_iff .asUsed, planned]
  cases ofLabel .asUsed groups label (usesOf groups label) with
  | none => simp
  | some outcome => cases outcome <;> simp [Except.toOption]

theorem IsTotal.planned_eq {parent : Nat} {op : Operation} (h : IsTotal groups label parent op) :
    planned groups label =
      some ⟨label, op, parent, ((carriers groups label).map (·.2)).filter (· ≠ parent)⟩ :=
  planned_eq_some_iff.mpr ⟨h, rfl, rfl⟩

/-- Totals are planned in the order of their labels. -/
theorem plan_fst (groups : List RowGroup) :
    (plan groups).1 = (labels groups).filterMap (planned groups) := by
  unfold plan planIn
  dsimp only
  rw [buckets_eq, List.filterMap_map, List.filterMap_filterMap, map_fst_uses, labels]
  refine List.filterMap_congr fun label _ => ?_
  rw [Function.comp_apply, usesOf_eq]
  rfl

theorem mem_labels_of_shared (shared : 2 ≤ (carriers groups label).length) :
    label ∈ labels groups := by
  obtain ⟨q, hq⟩ := List.exists_mem_of_length_pos (show 0 < (carriers groups label).length by omega)
  obtain ⟨hq, carried⟩ := List.mem_filter.mp hq
  obtain ⟨row, mem⟩ := List.exists_mem_of_ne_nil _ (of_decide_eq_true carried)
  obtain ⟨hrow, name⟩ := List.mem_filter.mp mem
  have hg := List.mem_of_getElem? (List.mem_zipIdx_iff_getElem?.mp hq)
  rw [labels, mem_distinct, List.mem_filterMap]
  exact ⟨row, List.mem_flatMap.mpr ⟨q.1, hg, hrow⟩, of_decide_eq_true name⟩

/-- Ambiguous labels are warned about. -/
theorem exists_warning_of_ambiguous (h : Ambiguous groups label) :
    ∃ detail, "formula group '" ++ label ++ "': " ++ detail ∈ (plan groups).2 := by
  obtain ⟨detail, warned⟩ := exists_error_of_ambiguous .asUsed h
  refine ⟨detail, ?_⟩
  unfold plan planIn
  dsimp only
  rw [List.mem_filterMap, buckets_eq, List.filterMap_map, map_fst_uses]
  refine ⟨.error _, List.mem_filterMap.mpr ⟨label, mem_labels_of_shared h.shared, ?_⟩, rfl⟩
  rw [Function.comp_apply, usesOf_eq]
  exact warned

/-! ## Orders of the search -/

/-- Two warnings are the same, or each of them names a group that repeats one and the same label. -/
inductive SameWarning (groups : List RowGroup) : String → String → Prop
  | same (w : String) : SameWarning groups w w
  | repeats {label : String} {i j : Nat} : Repeats groups label i → Repeats groups label j →
      SameWarning groups (repeatMessage groups label i) (repeatMessage groups label j)

/-- Two outcomes of a label are the same plan, or the same warning up to the group that it names. -/
inductive SameOutcome (groups : List RowGroup) :
    Except String TotalPlan → Except String TotalPlan → Prop
  | ok (t : TotalPlan) : SameOutcome groups (.ok t) (.ok t)
  | error {w w' : String} : SameWarning groups w w' → SameOutcome groups (.error w) (.error w')

/-- What a label amounts to in one order and in another. -/
theorem ofLabel_alike (order order' : SearchOrder) (groups : List RowGroup) (label : String) :
    Option.Rel (SameOutcome groups) (ofLabel order groups label (usesOf groups label))
      (ofLabel order' groups label (usesOf groups label)) := by
  unfold ofLabel
  dsimp only
  split_ifs
  · exact .none
  · split
    · exact .none
    · have none_iff : repeated? order label (usesOf groups label) = none ↔
          repeated? order' label (usesOf groups label) = none :=
        repeated?_eq_none_iff.trans repeated?_eq_none_iff.symm
      cases first : repeated? order label (usesOf groups label) with
      | none =>
        rw [none_iff.mp first]
        exact .some (.ok _)
      | some i =>
        cases second : repeated? order' label (usesOf groups label) with
        | none => cases first.symm.trans (none_iff.mpr second)
        | some j => exact .some (.error (.repeats (repeats_of_repeated? first)
            (repeats_of_repeated? second)))
    · exact .some (.error (.same _))

/-- In every order the same totals are planned, and the warnings are the same up to the groups that
    they name. -/
theorem planIn_alike (order : SearchOrder) (groups : List RowGroup) :
    (planIn order groups).1 = (plan groups).1 ∧
      List.Forall₂ (SameWarning groups) (planIn order groups).2 (plan groups).2 := by
  have outcomes : List.Forall₂ (SameOutcome groups)
      ((buckets (uses groups)).filterMap fun b => ofLabel order groups b.1 b.2)
      ((buckets (uses groups)).filterMap fun b => ofLabel .asUsed groups b.1 b.2) := by
    rw [buckets_eq, List.filterMap_map, List.filterMap_map]
    refine List.rel_filterMap (R := Eq) (fun label _ same => ?_) (List.forall₂_refl _)
    subst same
    rw [Function.comp_apply, Function.comp_apply, usesOf_eq]
    exact ofLabel_alike order .asUsed groups label
  constructor
  · refine (congrFun₂ List.forall₂_eq_eq_eq _ _).mp (List.rel_filterMap (fun o o' same => ?_) outcomes)
    cases same with
    | ok t => exact .some rfl
    | error _ => exact .none
  · refine List.rel_filterMap (fun o o' same => ?_) outcomes
    cases same with
    | ok t => exact .none
    | error warning => exact .some warning

/-- The last total that is planned for a group is that of its last label. -/
theorem getLast?_plan_iff {parent : Nat} {t : TotalPlan} :
    ((plan groups).1.filter (·.parent = parent)).getLast? = some t ↔
      t.parent = parent ∧ IsTotal groups t.label parent t.aggregation ∧
      t.children = ((carriers groups t.label).map (·.2)).filter (· ≠ parent) ∧
      ∀ label op, IsTotal groups label parent op →
        (labels groups).idxOf label ≤ (labels groups).idxOf t.label := by
  rw [plan_fst, List.filter_filterMap,
    getLast?_filterMap_eq_some_iff (show (labels groups).Nodup from nodup_distinct _)]
  simp only [Option.filter_eq_some_iff, planned_eq_some_iff, decide_eq_true_eq]
  constructor
  · rintro ⟨_, -, ⟨⟨total, rfl, children⟩, rfl⟩, latest⟩
    refine ⟨rfl, total, children, fun label op other => ?_⟩
    refine latest label (mem_labels_of_shared other.shared) ?_
    rw [other.planned_eq]
    simp
  · rintro ⟨rfl, total, children, latest⟩
    refine ⟨t.label, mem_labels_of_shared total.shared, ⟨⟨total, rfl, children⟩, rfl⟩,
      fun label _ some => ?_⟩
    obtain ⟨other, found⟩ := Option.isSome_iff_exists.mp some
    obtain ⟨found, same⟩ := Option.filter_eq_some_iff.mp found
    obtain ⟨isTotal, -⟩ := planned_eq_some_iff.mp found
    rw [of_decide_eq_true same] at isTotal
    exact latest label _ isTotal

/-! ## The groups of a total -/

section IsTotal

variable {parent : Nat} {op : Operation} (h : IsTotal groups label parent op)

include h

/-- The aggregation is stated next to the label. -/
theorem IsTotal.mem_uses : (label, ⟨parent, some op⟩) ∈ uses groups := by
  have mem : (parent, op) ∈ aggregations groups label := by
    rw [h.aggregated]
    exact List.mem_singleton_self _
  rw [← aggregators_usesOf, List.mem_filterMap] at mem
  obtain ⟨u, hu, eq⟩ := mem
  obtain ⟨_, stated, same⟩ := Option.map_eq_some_iff.mp eq
  obtain ⟨rfl, rfl⟩ := Prod.mk.inj same
  exact mem_usesOf.mp (stated ▸ hu)

/-- The group that states the aggregation carries the label. -/
theorem IsTotal.mem_carriers {g : RowGroup} (hg : groups[parent]? = some g) :
    (g, parent) ∈ carriers groups label := by
  have mem : parent ∈ (carriers groups label).map (·.2) := by
    rw [← distinct_group_usesOf, mem_distinct]
    exact List.mem_map_of_mem (mem_usesOf.mpr h.mem_uses)
  obtain ⟨q, hq, rfl⟩ := List.mem_map.mp mem
  have there := List.mem_zipIdx_iff_getElem?.mp (List.mem_filter.mp hq).1
  obtain rfl := Option.some.inj (there.symm.trans hg)
  exact hq

/-- A total joins all groups that carry its label. -/
theorem IsTotal.perm_carriers {g : RowGroup} (hg : groups[parent]? = some g) :
    (some g.hierarchyId :: (childrenOf groups label parent).map (·.hierarchyId)).Perm
      ((carriers groups label).map fun q => some q.1.hierarchyId) := by
  -- the groups before and after it are at other positions
  obtain ⟨front, back, split⟩ := List.append_of_mem (h.mem_carriers hg)
  have nodup : ((carriers groups label).map (·.2)).Nodup :=
    (List.filter_sublist.map _).nodup (nodup_map_snd_zipIdx groups)
  rw [split, List.map_append, List.map_cons, List.nodup_middle, List.nodup_cons, List.mem_append,
    not_or] at nodup
  have others : ∀ qs : List (RowGroup × Nat), parent ∉ qs.map (·.2) →
      qs.filter (·.2 ≠ parent) = qs := by
    intro qs absent
    rw [List.filter_eq_self]
    intro q hq
    exact decide_eq_true fun same => absent (List.mem_map.mpr ⟨q, hq, same⟩)
  have rest : (carriers groups label).filter (·.2 ≠ parent) = front ++ back := by
    rw [split, List.filter_append, List.filter_cons_of_neg (by simp), others _ nodup.1.1,
      others _ nodup.1.2]
  rw [childrenOf, rest, split, List.map_map]
  have moved : ((g, parent) :: (front ++ back)).Perm (front ++ (g, parent) :: back) :=
    List.perm_middle.symm
  exact moved.map fun q => some q.1.hierarchyId

end IsTotal

end TotalPlan

end Rollup

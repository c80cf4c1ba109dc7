import Mathlib.Data.List.Basic
import Rollup.Proofs.RowGroup.Labels

/-!
# Planned totals

What is planned for the labels of a list of groups, in terms of their uses: nothing if no row states
an aggregation, and a total if exactly one does and no node uses the label twice.

Results:

* `mem_uses`: which rows use a label.
* `of_mem_plan`, `exists_plan`: what is planned, and when.
* `plan_of_unaggregated`: without aggregations no total is planned.
-/

namespace Rollup

/-- The label of a row, with the aggregation that stands next to it. -/
def HierarchyRow.label? (row : HierarchyRow) : Option (String × Option Operation) :=
  row.formula.groupName.map fun label => (label, row.formula.aggregation)

theorem RowGroup.length_labelled (g : RowGroup) (label : String) :
    (g.labelled label).length =
      ((g.rows.filterMap HierarchyRow.label?).filter (·.1 = label)).length := by
  rw [labelled]
  induction g.rows with
  | nil => rfl
  | cons row rows ih =>
    cases name : row.formula.groupName with
    | none => simpa [HierarchyRow.label?, name] using ih
    | some l => by_cases same : l = label <;> simpa [HierarchyRow.label?, name, same] using ih

namespace TotalPlan

variable {groups : List RowGroup} {label : String}

/-! ## Uses -/

theorem uses_eq (groups : List RowGroup) : uses groups = groups.zipIdx.flatMap fun p =>
    (p.1.rows.filterMap HierarchyRow.label?).map fun u => (u.1, ⟨p.2, u.2⟩) := by
  rw [uses]
  refine List.flatMap_congr fun p _ => ?_
  rw [List.map_filterMap]
  refine List.filterMap_congr fun row _ => ?_
  rw [HierarchyRow.label?, Option.map_map]
  rfl

/-- A use of a label is by a row of its group. -/
theorem mem_uses {u : String × Use} : u ∈ uses groups ↔ ∃ g, groups[u.2.group]? = some g ∧
    (u.1, u.2.aggregation) ∈ g.rows.filterMap HierarchyRow.label? := by
  rw [uses_eq, List.mem_flatMap]
  constructor
  · rintro ⟨p, hp, mem⟩
    obtain ⟨v, hv, rfl⟩ := List.mem_map.mp mem
    exact ⟨p.1, List.mem_zipIdx_iff_getElem?.mp hp, hv⟩
  · rintro ⟨g, hg, mem⟩
    exact ⟨(g, u.2.group), List.mem_zipIdx_iff_getElem?.mpr hg, List.mem_map.mpr ⟨_, mem, rfl⟩⟩

/-! ## Plans -/

/-- A planned total is that of a label. -/
theorem isTotal_of_mem_plan {t : TotalPlan} (mem : t ∈ (plan groups).1) :
    IsTotal groups t.label t.parent t.aggregation ∧
      t.children = ((carriers groups t.label).map (·.2)).filter (· ≠ t.parent) := by
  rw [plan_fst, List.mem_filterMap] at mem
  obtain ⟨label, -, eq⟩ := mem
  obtain ⟨total, rfl, children⟩ := planned_eq_some_iff.mp eq
  exact ⟨total, children⟩

/-- Where no row states an aggregation, no total is planned. -/
theorem plan_of_unaggregated (unaggregated : ∀ u ∈ uses groups, u.2.aggregation = none) :
    (plan groups).1 = [] := by
  rw [List.eq_nil_iff_forall_not_mem]
  intro t mem
  cases unaggregated _ (isTotal_of_mem_plan mem).1.mem_uses

/-- A planned total is that of a row with an aggregation, and its children are the other groups that
    use the label. -/
theorem of_mem_plan {t : TotalPlan} (mem : t ∈ (plan groups).1) :
    (t.label, ⟨t.parent, some t.aggregation⟩) ∈ uses groups ∧
      ∀ k, k ∈ t.children ↔ (∃ a, (t.label, ⟨k, a⟩) ∈ uses groups) ∧ k ≠ t.parent := by
  obtain ⟨total, children⟩ := isTotal_of_mem_plan mem
  refine ⟨total.mem_uses, fun k => ?_⟩
  rw [children, List.mem_filter, decide_eq_true_eq, ← distinct_group_usesOf, mem_distinct,
    List.mem_map]
  refine and_congr_left fun _ => ⟨?_, ?_⟩
  · rintro ⟨u, hu, rfl⟩
    exact ⟨u.aggregation, mem_usesOf.mp hu⟩
  · rintro ⟨a, hu⟩
    exact ⟨⟨k, a⟩, mem_usesOf.mpr hu, rfl⟩

theorem parent_lt_of_mem_plan {t : TotalPlan} (mem : t ∈ (plan groups).1) :
    t.parent < groups.length := by
  obtain ⟨g, hg, -⟩ := mem_uses.mp (of_mem_plan mem).1
  exact (List.getElem?_eq_some_iff.mp hg).1

/-- A label that two groups use is shared. -/
theorem two_le_length_carriers {u v : Use} (hu : (label, u) ∈ uses groups)
    (hv : (label, v) ∈ uses groups) (apart : u.group ≠ v.group) :
    2 ≤ (carriers groups label).length := by
  have member : ∀ w : Use, (label, w) ∈ uses groups →
      w.group ∈ (carriers groups label).map (·.2) := by
    intro w hw
    rw [← distinct_group_usesOf, mem_distinct]
    exact List.mem_map_of_mem (mem_usesOf.mpr hw)
  have first := member u hu
  have second := member v hv
  have some := List.length_pos_of_mem first
  rw [List.length_map] at some
  by_contra few
  obtain ⟨g, one⟩ := List.length_eq_one_iff.mp
    (show (carriers groups label).length = 1 by omega)
  rw [one, List.map_singleton, List.mem_singleton] at first second
  exact apart (first.trans second.symm)

/-- Where every group uses a label once and only one of them states aggregations, there is one. -/
theorem aggregations_of_single {parent : Nat} {op : Operation}
    (nodup : ((usesOf groups label).map (·.group)).Nodup)
    (stated : ⟨parent, some op⟩ ∈ usesOf groups label)
    (single : ∀ u ∈ usesOf groups label, u.aggregation ≠ none → u.group = parent) :
    aggregations groups label = [(parent, op)] := by
  -- the uses before and after it are by other groups
  obtain ⟨front, back, split⟩ := List.append_of_mem stated
  have none : ∀ u ∈ usesOf groups label, u.group ≠ parent →
      (u.aggregation.map fun op => (u.group, op)) = none := by
    intro u hu apart
    rw [Option.map_eq_none_iff]
    by_contra some
    exact apart (single u hu some)
  rw [split, List.map_append, List.map_cons, List.nodup_middle, List.nodup_cons, List.mem_append,
    not_or] at nodup
  have before : ∀ u ∈ front, u.group ≠ parent := by
    rintro u hu rfl
    exact nodup.1.1 (List.mem_map.mpr ⟨u, hu, rfl⟩)
  have after : ∀ u ∈ back, u.group ≠ parent := by
    rintro u hu rfl
    exact nodup.1.2 (List.mem_map.mpr ⟨u, hu, rfl⟩)
  have first : (front.filterMap fun u => u.aggregation.map fun op => (u.group, op)) = [] :=
    List.filterMap_eq_nil_iff.mpr fun u hu => none u (by rw [split]; simp [hu]) (before u hu)
  have last : (back.filterMap fun u => u.aggregation.map fun op => (u.group, op)) = [] :=
    List.filterMap_eq_nil_iff.mpr fun u hu => none u (by rw [split]; simp [hu]) (after u hu)
  rw [← aggregators_usesOf, split, List.filterMap_append, first, List.filterMap_cons, last]
  rfl

/-- A label with one aggregation, which no group has on several rows, is planned as a total if it is
    used at all. -/
theorem exists_plan {parent : Nat} {op : Operation}
    (stated : (label, ⟨parent, some op⟩) ∈ uses groups)
    (single : ∀ u, (label, u) ∈ uses groups → u.aggregation ≠ none → u.group = parent)
    (others : ∃ u, (label, u) ∈ uses groups ∧ u.group ≠ parent)
    (once : ∀ g ∈ groups,
      ((g.rows.filterMap HierarchyRow.label?).filter (·.1 = label)).length ≤ 1) :
    ∃ t ∈ (plan groups).1, t.parent = parent := by
  obtain ⟨u, hu, other⟩ := others
  have once : ∀ g ∈ groups, (g.labelled label).length ≤ 1 :=
    fun g hg => g.length_labelled label ▸ once g hg
  have total : IsTotal groups label parent op :=
    ⟨two_le_length_carriers hu stated other,
      aggregations_of_single (nodup_group_usesOf_iff.mpr once) (mem_usesOf.mpr stated)
        fun u hu => single u (mem_usesOf.mp hu), once⟩
  have planned := List.mem_filterMap.mpr
    ⟨label, mem_labels_of_shared total.shared, total.planned_eq⟩
  rw [← plan_fst] at planned
  exact ⟨_, planned, rfl⟩

end TotalPlan

end Rollup

import Mathlib.Data.List.Basic
import Mathlib.Data.List.Nodup
import Mathlib.Data.List.Pairwise
import Mathlib.Tactic.SplitIfs
import Rollup.Proofs.Buckets
import Rollup.Proofs.Sort
import Rollup.RowGroup

/-!
# Groups of rows with one key

Both dialects give a row a key, if it has one, and collect the rows by it. So a group holds the rows
with a key of its own, each once, and no row is in two groups.

Results:

* `before_of_leads`: the order of leadership, said without the comparison that sorts.
* `keyedBy_buckets`: groups that are made from buckets are keyed.
* `KeyedBy.existsUnique`: a row that is in a group is in one only.
* `KeyedBy.nodup_numbers`, `KeyedBy.pairwise_before`, `KeyedBy.pairwise_first`: the rows of all
  groups, the rows of one group, and the groups.
-/

namespace Rollup

/-! ## The order of leadership -/

namespace HierarchyRow

/-- How rows of one node follow each other: first the rows with a cross-reference key by ascending
    key, then those without one, and where this does not tell rows apart, by their numbers. -/
def Before (a b : HierarchyRow) : Prop :=
  match a.xrefKey, b.xrefKey with
  | some x, some y => x < y ∨ x = y ∧ a.number < b.number
  | some _, none => True
  | none, some _ => False
  | none, none => a.number < b.number

theorem before_of_leads {a b : HierarchyRow} (h : a.leads b = true) (apart : a.number ≠ b.number) :
    a.Before b := by
  unfold leads at h
  unfold Before
  cases ha : a.xrefKey <;> cases hb : b.xrefKey <;> rw [ha, hb] at h <;>
    simp only [Bool.or_eq_true, Bool.and_eq_true, decide_eq_true_eq, beq_iff_eq,
      Bool.false_eq_true] at h ⊢ <;> omega

theorem Before.asymm {a b : HierarchyRow} (h : a.Before b) : ¬ b.Before a := by
  unfold Before at *
  cases ha : a.xrefKey <;> cases hb : b.xrefKey <;>
    simp only [ha, hb, not_false_eq_true] at h ⊢ <;> omega

theorem leads_trans (a b c : HierarchyRow) (hab : a.leads b = true) (hbc : b.leads c = true) :
    a.leads c = true := by
  unfold leads at *
  cases ha : a.xrefKey <;> cases hb : b.xrefKey <;> cases hc : c.xrefKey <;>
    simp only [ha, hb, hc, Bool.or_eq_true, Bool.and_eq_true, decide_eq_true_eq, beq_iff_eq,
      Bool.false_eq_true] at * <;> omega

theorem leads_total (a b : HierarchyRow) : a.leads b = true ∨ b.leads a = true := by
  unfold leads
  cases ha : a.xrefKey <;> cases hb : b.xrefKey <;>
    simp only [Bool.or_eq_true, Bool.and_eq_true, decide_eq_true_eq, beq_iff_eq,
      Bool.false_eq_true, or_true, true_or] <;> omega

end HierarchyRow

theorem pairwise_leadershipOrder (rows : List HierarchyRow) :
    (leadershipOrder rows).Pairwise fun a b => a.leads b = true :=
  pairwise_stableSort HierarchyRow.leads_trans HierarchyRow.leads_total rows

theorem perm_leadershipOrder (rows : List HierarchyRow) : (leadershipOrder rows).Perm rows :=
  perm_stableSort _ rows

/-- The first number of a group is the least number of its rows. -/
theorem RowGroup.isLeast_firstNumber (g : RowGroup) :
    IsLeast {n | ∃ r ∈ g.rows, r.number = n} g.firstNumber := by
  have whole : {n | ∃ r ∈ g.rows, r.number = n} =
      {k | k = g.leader.number ∨ ∃ r ∈ g.others, r.number = k} := by
    ext k
    simp [rows, eq_comm]
  rw [whole]
  exact isLeast_foldl_min HierarchyRow.number g.others g.leader.number

/-! ## Groups in the order of leadership -/

namespace RowGroup

/-- The group with its rows in the order of leadership. -/
def led (g : RowGroup) : RowGroup :=
  match leadershipOrder g.rows with
  | [] => g
  | leader :: others => { g with leader := leader, others := others }

variable (g : RowGroup)

theorem rows_led : g.led.rows = leadershipOrder g.rows := by
  rw [led]
  cases order : leadershipOrder g.rows with
  | nil =>
    have perm := perm_leadershipOrder g.rows
    rw [order] at perm
    exact absurd perm.symm.eq_nil (List.cons_ne_nil _ _)
  | cons leader others => rfl

theorem perm_rows_led : g.led.rows.Perm g.rows :=
  g.rows_led ▸ perm_leadershipOrder g.rows

theorem mem_rows_led {row : HierarchyRow} : row ∈ g.led.rows ↔ row ∈ g.rows :=
  g.perm_rows_led.mem_iff

/-- The leader of a group in the order of leadership is one of its rows. -/
theorem leader_led_mem : g.led.leader ∈ g.rows :=
  g.mem_rows_led.mp List.mem_cons_self

/-- Only the rows are put in order. -/
theorem led_eq : g.led = { g with leader := g.led.leader, others := g.led.others } := by
  rw [led]
  split <;> rfl

@[simp] theorem hierarchyId_led : g.led.hierarchyId = g.hierarchyId := by
  rw [led_eq]

@[simp] theorem name_led : g.led.name = g.name := by
  rw [led_eq]

@[simp] theorem path_led : g.led.path = g.path := by
  rw [led_eq]

@[simp] theorem pathSorts_led : g.led.pathSorts = g.pathSorts := by
  rw [led_eq]

/-- A group whose rows stand in the order of leadership stays as it is. -/
theorem led_of_pairwise {g : RowGroup} (order : g.rows.Pairwise fun a b => a.leads b = true) :
    g.led = g := by
  rw [led, leadershipOrder, stableSort_of_sorted order]
  rfl

/-- The first number of a group does not depend on the order of its rows. -/
@[simp] theorem firstNumber_led : g.led.firstNumber = g.firstNumber := by
  refine g.led.isLeast_firstNumber.unique ?_
  simp only [mem_rows_led]
  exact g.isLeast_firstNumber

end RowGroup

/-! ## Buckets of rows -/

section Buckets

variable {κ α : Type}

/-- The elements that have a key, with it. -/
def withKey (key : α → Option κ) (xs : List α) : List (κ × α) :=
  xs.filterMap fun a => (key a).map fun k => (k, a)

theorem mem_withKey {key : α → Option κ} {xs : List α} {k : κ} {a : α} :
    (k, a) ∈ withKey key xs ↔ a ∈ xs ∧ key a = some k := by
  rw [withKey, List.mem_filterMap]
  constructor
  · rintro ⟨a', mem, same⟩
    obtain ⟨k', hk, eq⟩ := Option.map_eq_some_iff.mp same
    obtain ⟨rfl, rfl⟩ := Prod.mk.inj eq
    exact ⟨mem, hk⟩
  · rintro ⟨mem, hk⟩
    exact ⟨a, mem, by rw [hk]; rfl⟩

variable [DecidableEq κ]

theorem map_filter_withKey (key : α → Option κ) (xs : List α) (k : κ) :
    ((withKey key xs).filter fun p => p.1 = k).map (·.2) = xs.filter (key · = some k) := by
  induction xs with
  | nil => rfl
  | cons a xs ih =>
    rw [withKey, List.filterMap_cons]
    cases hk : key a with
    | none => simpa [hk, withKey] using ih
    | some j =>
      by_cases same : j = k
      · simpa [hk, same, withKey] using ih
      · simpa [hk, same, withKey] using ih

/-- A bucket holds the elements with its key. -/
theorem bucket_withKey {key : α → Option κ} {xs : List α} {b : κ × List α}
    (mem : b ∈ buckets (withKey key xs)) : b.2 = xs.filter (key · = some b.1) := by
  rw [buckets_eq] at mem
  obtain ⟨k, -, rfl⟩ := List.mem_map.mp mem
  exact map_filter_withKey key xs k

theorem pairwise_buckets (keyed : List (κ × α)) :
    (buckets keyed).Pairwise fun b c => b.1 ≠ c.1 := by
  rw [buckets_eq, List.pairwise_map]
  exact nodup_distinct _

end Buckets

/-! ## Keyed groups -/

/-- Each of the groups holds the rows with a key of its own, in the order of leadership. -/
structure KeyedBy {κ : Type} [DecidableEq κ] (key : HierarchyRow → Option κ)
    (rows : List HierarchyRow) (groups : List RowGroup) : Prop where
  held : ∀ g ∈ groups, ∃ k, g.rows.Perm (rows.filter (key · = some k))
  led : ∀ g ∈ groups, g.rows.Pairwise fun a b => a.leads b = true
  apart : groups.Pairwise fun g h => ∀ r ∈ g.rows, r ∉ h.rows

section Keyed

variable {κ : Type} [DecidableEq κ] {key : HierarchyRow → Option κ} {rows : List HierarchyRow}
  {groups : List RowGroup}

theorem mem_of_perm_filter {g : RowGroup} {k : κ}
    (held : g.rows.Perm (rows.filter (key · = some k))) {r : HierarchyRow} :
    r ∈ g.rows ↔ r ∈ rows ∧ key r = some k := by
  rw [held.mem_iff, List.mem_filter, decide_eq_true_eq]

/-- Groups that are made from the buckets of rows are keyed. -/
theorem keyedBy_buckets {arranged : List HierarchyRow} (perm : arranged.Perm rows)
    {make : κ × List HierarchyRow → Option RowGroup}
    (whole : ∀ b g, make b = some g → g.rows = leadershipOrder b.2) :
    KeyedBy key rows ((buckets (withKey key arranged)).filterMap make) := by
  have held : ∀ b ∈ buckets (withKey key arranged), ∀ g, make b = some g →
      g.rows.Perm (rows.filter (key · = some b.1)) := by
    intro b hb g hg
    rw [whole b g hg]
    refine (perm_leadershipOrder _).trans ?_
    rw [bucket_withKey hb]
    exact perm.filter _
  refine ⟨?_, ?_, ?_⟩
  · intro g mem
    obtain ⟨b, hb, hg⟩ := List.mem_filterMap.mp mem
    exact ⟨b.1, held b hb g hg⟩
  · intro g mem
    obtain ⟨b, -, hg⟩ := List.mem_filterMap.mp mem
    rw [whole b g hg]
    exact pairwise_leadershipOrder b.2
  · rw [List.pairwise_filterMap]
    refine (pairwise_buckets _).imp_of_mem fun {b c} hb hc ne g hg h hh r hr hr' => ne ?_
    have keyB := ((mem_of_perm_filter (held b hb g hg)).mp hr).2
    have keyC := ((mem_of_perm_filter (held c hc h hh)).mp hr').2
    exact Option.some.inj (keyB.symm.trans keyC)

/-- The order of the groups does not matter. -/
theorem KeyedBy.of_perm {groups' : List RowGroup} (h : KeyedBy key rows groups)
    (perm : groups'.Perm groups) : KeyedBy key rows groups' where
  held := fun g hg => h.held g (perm.mem_iff.mp hg)
  led := fun g hg => h.led g (perm.mem_iff.mp hg)
  apart := (perm.pairwise_iff fun disjoint r hr hr' => disjoint r hr' hr).mpr h.apart

section Rows

variable (h : KeyedBy key rows groups)

include h

theorem KeyedBy.mem_rows {g : RowGroup} (hg : g ∈ groups) {r : HierarchyRow} (hr : r ∈ g.rows) :
    r ∈ rows := by
  obtain ⟨k, held⟩ := h.held g hg
  exact ((mem_of_perm_filter held).mp hr).1

/-- A group with a row holds the rows with the key of that row. -/
theorem KeyedBy.mem_iff {g : RowGroup} (hg : g ∈ groups) {r : HierarchyRow} (hr : r ∈ g.rows)
    {r' : HierarchyRow} : r' ∈ g.rows ↔ r' ∈ rows ∧ key r' = key r := by
  obtain ⟨k, held⟩ := h.held g hg
  rw [mem_of_perm_filter held, ((mem_of_perm_filter held).mp hr).2]

/-- A row that is in a group is in one only. -/
theorem KeyedBy.existsUnique {g : RowGroup} (hg : g ∈ groups) {r : HierarchyRow}
    (hr : r ∈ g.rows) : ∃! i : Nat, ∃ g, groups[i]? = some g ∧ r ∈ g.rows := by
  obtain ⟨i, here⟩ := List.getElem?_of_mem hg
  refine ⟨i, ⟨g, here, hr⟩, ?_⟩
  rintro j ⟨g', there, hr'⟩
  have apart := List.pairwise_iff_getElem.mp h.apart
  obtain ⟨hi, rfl⟩ := List.getElem?_eq_some_iff.mp here
  obtain ⟨hj, rfl⟩ := List.getElem?_eq_some_iff.mp there
  rcases Nat.lt_trichotomy i j with less | same | less
  · exact absurd hr' (apart i j hi hj less r hr)
  · exact same.symm
  · exact absurd hr (apart j i hj hi less r hr')

variable (distinct : (rows.map (·.number)).Nodup)

include distinct

theorem KeyedBy.nodup_group {g : RowGroup} (hg : g ∈ groups) : (g.rows.map (·.number)).Nodup := by
  obtain ⟨k, held⟩ := h.held g hg
  exact ((held.map _).nodup_iff).mpr (distinct.sublist (List.filter_sublist.map _))

/-- The rows of all groups have distinct numbers. -/
theorem KeyedBy.nodup_numbers : ((groups.flatMap RowGroup.rows).map (·.number)).Nodup := by
  rw [List.map_flatMap, List.nodup_flatMap]
  refine ⟨fun g hg => h.nodup_group distinct hg, ?_⟩
  refine h.apart.imp_of_mem fun {g g'} hg hg' disjoint n hn hn' => ?_
  obtain ⟨r, hr, rfl⟩ := List.mem_map.mp hn
  obtain ⟨r', hr', same⟩ := List.mem_map.mp hn'
  have eq : r' = r := List.inj_on_of_nodup_map distinct (h.mem_rows hg' hr') (h.mem_rows hg hr) same
  exact disjoint r hr (eq ▸ hr')

/-- The rows of a group come in the order of leadership. -/
theorem KeyedBy.pairwise_before {g : RowGroup} (hg : g ∈ groups) :
    g.rows.Pairwise HierarchyRow.Before := by
  have apart := List.pairwise_map.mp (h.nodup_group distinct hg)
  exact ((h.led g hg).and apart).imp fun both => HierarchyRow.before_of_leads both.1 both.2

/-- Groups in the order of their first numbers: each has a row in front of all rows of the later
    ones. -/
theorem KeyedBy.pairwise_first (ordered : groups.Pairwise fun g g' => g.firstNumber ≤ g'.firstNumber) :
    groups.Pairwise fun g g' => ∃ r ∈ g.rows, ∀ r' ∈ g'.rows, r.number < r'.number := by
  refine (ordered.and h.apart).imp_of_mem fun {g g'} hg hg' both => ?_
  obtain ⟨r, hr, first⟩ := g.isLeast_firstNumber.1
  refine ⟨r, hr, fun r' hr' => ?_⟩
  have low : g'.firstNumber ≤ r'.number := g'.isLeast_firstNumber.2 ⟨r', hr', rfl⟩
  have ne : r.number ≠ r'.number := by
    intro same
    have eq := List.inj_on_of_nodup_map distinct (h.mem_rows hg hr) (h.mem_rows hg' hr') same
    exact both.2 r hr (eq ▸ hr')
  have := both.1
  omega

end Rows

end Keyed

end Rollup

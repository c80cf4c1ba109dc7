import Mathlib.Data.List.Nodup
import Mathlib.Data.List.Pairwise
import Mathlib.Data.List.Perm.Basic
import Mathlib.Logic.Relation
import Rollup.RowGroup.Standard

/-!
# The parents that rows name

A standard row names its parent by cross-reference key, by hierarchy id, or by its path. Where rows
have these keys for themselves, the parent that a row names depends neither on the order of the rows
nor on their numbers.

Results:

* `find?_of_perm`: among elements with distinct keys, the one with a key does not depend on the order.
* `parentKey?_congr`: the hierarchy id of the parent that a row names depends on what the rows say.
* `Explicit.congr`: rows that name their places explicitly do so in every order.
-/

namespace Rollup

/-! ## Distinct keys -/

section Keys

variable {α κ : Type} {key : α → Option κ} {xs ys : List α}

theorem eq_of_nodup_filterMap (nodup : (xs.filterMap key).Nodup) {a b : α} {k : κ} (ha : a ∈ xs)
    (hb : b ∈ xs) (keyA : key a = some k) (keyB : key b = some k) : a = b := by
  by_contra ne
  have apart := List.pairwise_filterMap.mp nodup
  have : Std.Symm fun a b => ∀ x, key a = some x → ∀ y, key b = some y → x ≠ y :=
    ⟨fun a b h x hx y hy same => h y hy x hx same.symm⟩
  exact apart.forall ha hb ne k keyA k keyB rfl

variable [BEq κ] [LawfulBEq κ]

theorem find?_key_eq_some_iff (nodup : (xs.filterMap key).Nodup) {k : κ} {a : α} :
    xs.find? (key · == some k) = some a ↔ a ∈ xs ∧ key a = some k := by
  constructor
  · intro found
    exact ⟨List.mem_of_find?_eq_some found, by simpa using List.find?_some found⟩
  · rintro ⟨mem, has⟩
    have found : (xs.find? (key · == some k)).isSome = true := by
      rw [List.find?_isSome]
      exact ⟨a, mem, by simp [has]⟩
    obtain ⟨b, hb⟩ := Option.isSome_iff_exists.mp found
    have other : key b = some k := by simpa using List.find?_some hb
    rw [hb, eq_of_nodup_filterMap nodup (List.mem_of_find?_eq_some hb) mem other has]

/-- Among elements with distinct keys, the one with a key does not depend on the order. -/
theorem find?_of_perm (nodup : (xs.filterMap key).Nodup) (perm : xs.Perm ys) (k : κ) :
    xs.find? (key · == some k) = ys.find? (key · == some k) := by
  have nodup' : (ys.filterMap key).Nodup := (perm.filterMap key).nodup_iff.mp nodup
  refine Option.ext fun a => ?_
  rw [find?_key_eq_some_iff nodup, find?_key_eq_some_iff nodup', perm.mem_iff]

end Keys

namespace HierarchyRow

/-! ## Parents -/

/-- What a row says, whatever its number is. -/
def unnumbered (r : HierarchyRow) : HierarchyRow :=
  { r with number := 0 }

/-- The path of a row, if it has one. -/
def path? (w : Window) (r : HierarchyRow) : Option (List String) :=
  let path := LevelPath.resolve w r.levels
  if path = [] then none else some path

/-- The first row with a key that a row asks for, unless it is the row itself. -/
def named? {κ : Type} [BEq κ] (rows : List HierarchyRow) (r : HierarchyRow)
    (key : HierarchyRow → Option κ) (wanted : Option κ) : Option HierarchyRow :=
  wanted.bind fun k => (rows.find? (key · == some k)).filter (·.hierarchyId ≠ r.hierarchyId)

/-- The row that a row names as its parent: by cross-reference key, by hierarchy id, and then by path
    unless the row says that it is a root. -/
def parentRow? (w : Window) (rows : List HierarchyRow) (r : HierarchyRow) : Option HierarchyRow :=
  ((named? rows r (·.xrefKey) r.parentXrefKey).or
    (named? rows r (·.hierarchyId) r.parentHierarchyId)).or
    (if r.isRoot = some true then none
      else named? rows r (path? w) (LevelPath.parent? (LevelPath.resolve w r.levels)))

/-- The hierarchy id of the row that a row names as its parent. -/
def parentKey? (w : Window) (rows : List HierarchyRow) (r : HierarchyRow) : Option String :=
  (parentRow? w rows r).bind (·.hierarchyId)

/-- Between hierarchy ids: the row with the second names the row with the first as its parent. -/
def IsParentKey (w : Window) (rows : List HierarchyRow) (parent child : String) : Prop :=
  ∃ r ∈ rows, r.hierarchyId = some child ∧ parentKey? w rows r = some parent

/-- No two rows share a key. -/
structure DistinctKeys (w : Window) (rows : List HierarchyRow) : Prop where
  ids : (rows.filterMap (·.hierarchyId)).Nodup
  xrefs : (rows.filterMap (·.xrefKey)).Nodup
  paths : (rows.filterMap (path? w)).Nodup

/-- Rows that name their places explicitly: they have hierarchy ids, share no keys, and the parents
    that they name form no cycle. -/
structure Explicit (w : Window) (rows : List HierarchyRow) : Prop extends DistinctKeys w rows where
  filled : ∀ r ∈ rows, ∃ id, r.hierarchyId = some id ∧ id ≠ ""
  acyclic : ∀ id, ¬ Relation.TransGen (IsParentKey w rows) id id

/-- Rows that name parents of a lower rank form no cycle. -/
theorem acyclic_of_rank {w : Window} {rows : List HierarchyRow} (rank : String → Nat)
    (lowers : ∀ r ∈ rows, ∀ child ∈ r.hierarchyId, ∀ parent ∈ parentKey? w rows r,
      rank parent < rank child) (id : String) :
    ¬ Relation.TransGen (IsParentKey w rows) id id := by
  intro cycle
  have step : ∀ a b, IsParentKey w rows a b → rank a < rank b := by
    rintro a b ⟨r, hr, child, parent⟩
    exact lowers r hr b child a parent
  have less := Relation.TransGen.lift rank step id id cycle
  rw [Relation.transGen_eq_self] at less
  exact Nat.lt_irrefl _ less

/-! ## Order and numbers -/

/-- Rows that say the same agree in whatever does not depend on the number. -/
theorem eq_of_unnumbered {α : Type} (f : HierarchyRow → α) (free : ∀ r, f (unnumbered r) = f r)
    {r r' : HierarchyRow} (same : r.unnumbered = r'.unnumbered) : f r = f r' := by
  rw [← free r, same, free r']

section Named

variable {κ : Type} [BEq κ] {key : HierarchyRow → Option κ} {rows rows' : List HierarchyRow}

theorem named?_of_perm [LawfulBEq κ] (nodup : (rows.filterMap key).Nodup) (perm : rows.Perm rows')
    (r : HierarchyRow) (wanted : Option κ) :
    named? rows r key wanted = named? rows' r key wanted := by
  unfold named?
  simp only [find?_of_perm nodup perm]

theorem named?_unnumbered (same : ∀ r, key (unnumbered r) = key r) (r : HierarchyRow)
    (wanted : Option κ) :
    named? (rows.map unnumbered) r.unnumbered key wanted =
      (named? rows r key wanted).map unnumbered := by
  cases wanted with
  | none => rfl
  | some k =>
    have found : (rows.map unnumbered).find? (key · == some k) =
        (rows.find? (key · == some k)).map unnumbered := by
      rw [List.find?_map]
      simp only [Function.comp_def, same]
    rw [named?, Option.bind_some, found, named?, Option.bind_some, Option.filter_map]
    rfl

end Named

section Congr

variable {w : Window} {rows rows' : List HierarchyRow} {r r' : HierarchyRow}

theorem parentKey?_unnumbered :
    parentKey? w (rows.map unnumbered) r.unnumbered = parentKey? w rows r := by
  have row : parentRow? w (rows.map unnumbered) r.unnumbered =
      (parentRow? w rows r).map unnumbered := by
    unfold parentRow?
    rw [named?_unnumbered fun _ => rfl, named?_unnumbered fun _ => rfl,
      named?_unnumbered fun _ => rfl, Option.map_or, Option.map_or]
    by_cases root : r.isRoot = some true
    · rw [if_pos root, if_pos (show r.unnumbered.isRoot = some true from root)]
      rfl
    · rw [if_neg root, if_neg (show r.unnumbered.isRoot ≠ some true from root)]
      rfl
  rw [parentKey?, row, Option.bind_map]
  rfl

theorem parentKey?_of_perm (h : DistinctKeys w rows) (perm : rows.Perm rows') :
    parentKey? w rows r = parentKey? w rows' r := by
  unfold parentKey? parentRow?
  rw [named?_of_perm h.xrefs perm, named?_of_perm h.ids perm, named?_of_perm h.paths perm]

theorem filterMap_unnumbered {κ : Type} (key : HierarchyRow → Option κ)
    (same : ∀ r, key (unnumbered r) = key r) (rows : List HierarchyRow) :
    (rows.map unnumbered).filterMap key = rows.filterMap key := by
  rw [List.filterMap_map]
  exact List.filterMap_congr fun r _ => same r

theorem distinctKeys_unnumbered :
    DistinctKeys w (rows.map unnumbered) ↔ DistinctKeys w rows := by
  have ids := filterMap_unnumbered (·.hierarchyId) (fun _ => rfl) rows
  have xrefs := filterMap_unnumbered (·.xrefKey) (fun _ => rfl) rows
  have paths := filterMap_unnumbered (path? w) (fun _ => rfl) rows
  constructor
  · rintro ⟨h₁, h₂, h₃⟩
    exact ⟨ids ▸ h₁, xrefs ▸ h₂, paths ▸ h₃⟩
  · rintro ⟨h₁, h₂, h₃⟩
    exact ⟨ids.symm ▸ h₁, xrefs.symm ▸ h₂, paths.symm ▸ h₃⟩

theorem DistinctKeys.of_perm (h : DistinctKeys w rows) (perm : rows.Perm rows') :
    DistinctKeys w rows' :=
  ⟨(perm.filterMap _).nodup_iff.mp h.ids, (perm.filterMap _).nodup_iff.mp h.xrefs,
    (perm.filterMap _).nodup_iff.mp h.paths⟩

end Congr

section Renumbered

variable {w : Window} {rows rows' : List HierarchyRow} {r r' : HierarchyRow}
  (perm : (rows.map unnumbered).Perm (rows'.map unnumbered))

include perm

theorem exists_renumbered (mem : r ∈ rows) : ∃ r' ∈ rows', r.unnumbered = r'.unnumbered := by
  obtain ⟨r', hr', same⟩ := List.mem_map.mp (perm.subset (List.mem_map_of_mem mem))
  exact ⟨r', hr', same.symm⟩

/-- The hierarchy id of the parent that a row names depends on what the rows say. -/
theorem parentKey?_congr (h : DistinctKeys w rows) (same : r.unnumbered = r'.unnumbered) :
    parentKey? w rows r = parentKey? w rows' r' :=
  calc parentKey? w rows r
      = parentKey? w (rows.map unnumbered) r.unnumbered := parentKey?_unnumbered.symm
    _ = parentKey? w (rows'.map unnumbered) r'.unnumbered := by
        rw [same, parentKey?_of_perm (distinctKeys_unnumbered.mpr h) perm]
    _ = parentKey? w rows' r' := parentKey?_unnumbered

theorem isParentKey_congr (h : DistinctKeys w rows) {parent child : String}
    (named : IsParentKey w rows' parent child) : IsParentKey w rows parent child := by
  obtain ⟨r', hr', id, key⟩ := named
  obtain ⟨r, hr, same⟩ := exists_renumbered perm.symm hr'
  refine ⟨r, hr, ?_, ?_⟩
  · rw [← eq_of_unnumbered (·.hierarchyId) (fun _ => rfl) same, id]
  · rw [parentKey?_congr perm h same.symm, key]

/-- Rows that name their places explicitly do so in every order and under all numbers. -/
theorem Explicit.congr (h : Explicit w rows) : Explicit w rows' where
  toDistinctKeys :=
    distinctKeys_unnumbered.mp ((distinctKeys_unnumbered.mpr h.toDistinctKeys).of_perm perm)
  filled := by
    intro r' hr'
    obtain ⟨r, hr, same⟩ := exists_renumbered perm.symm hr'
    obtain ⟨id, has, ne⟩ := h.filled r hr
    exact ⟨id, (eq_of_unnumbered (·.hierarchyId) (fun _ => rfl) same).trans has, ne⟩
  acyclic := by
    intro id cycle
    exact h.acyclic id (Relation.TransGen.mono
      (fun _ _ named => isParentKey_congr perm h.toDistinctKeys named) _ _ cycle)

end Renumbered

end HierarchyRow

end Rollup

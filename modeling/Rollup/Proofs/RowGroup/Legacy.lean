import Mathlib.Data.List.Basic
import Mathlib.Tactic.SplitIfs
import Rollup.Proofs.Buckets
import Rollup.Proofs.Text.Slug
import Rollup.RowGroup.Legacy

/-!
# Groups and placeholders of legacy rows

There is one group for each path that a row has, and one placeholder for each proper leading part
of such a path that is itself no row's path.

Results:

* `map_path_group`: the paths of the groups.
* `mem_map_path_missingAncestors`, `nodup_missingAncestors`: the paths of the placeholders.
* `trimmed_group`, `trimmed_missingAncestors`: hierarchy ids are trimmed.
-/

namespace Rollup.RowGroup.Legacy

/-! ## Groups -/

/-- What a group takes from its bucket. -/
theorem ofBucket_eq_some {w : Window} {path : List String} {rows : List HierarchyRow}
    {g : RowGroup} (h : ofBucket w path rows = some g) :
    g.path = path ∧ g.name = (path.getLast?.or g.leader.name).getD "" ∧
      g.rows = leadershipOrder rows ∧
      g.hierarchyId = (g.rows.findSome? (·.hierarchyId)).getD (Text.slugPath path) := by
  unfold ofBucket at h
  split at h
  · cases h
  · rename_i leader others order
    cases h
    exact ⟨rfl, rfl, order.symm, rfl⟩

theorem ofBucket_isSome {w : Window} {path : List String} {rows : List HierarchyRow}
    (h : rows ≠ []) : (ofBucket w path rows).isSome = true := by
  have length : (leadershipOrder rows).length = rows.length := length_stableSort _ rows
  unfold ofBucket
  split
  · rename_i order
    rw [order, List.length_nil] at length
    exact absurd (List.length_eq_zero_iff.mp length.symm) h
  · rfl

/-- The rows that have a path, with it. -/
def keyedRows (w : Window) (rows : List HierarchyRow) : List (List String × HierarchyRow) :=
  (rows.map fun row => (rowPath w row, row)).filter (·.1 ≠ [])

theorem group_fst (w : Window) (rows : List HierarchyRow) :
    (group w rows).1 = (buckets (keyedRows w rows)).filterMap fun b => ofBucket w b.1 b.2 := rfl

theorem mem_keyedRows {w : Window} {rows : List HierarchyRow} {q : List String × HierarchyRow} :
    q ∈ keyedRows w rows ↔ q.2 ∈ rows ∧ q.1 = rowPath w q.2 ∧ q.1 ≠ [] := by
  rw [keyedRows, List.mem_filter, List.mem_map]
  constructor
  · rintro ⟨⟨row, hrow, rfl⟩, ne⟩
    exact ⟨hrow, rfl, by simpa using ne⟩
  · rintro ⟨hrow, hpath, ne⟩
    exact ⟨⟨q.2, hrow, by rw [← hpath]⟩, by simpa using ne⟩

/-- A group has rows of the file with its path. -/
theorem mem_group {w : Window} {rows : List HierarchyRow} {g : RowGroup}
    (h : g ∈ (group w rows).1) :
    g.path ≠ [] ∧ (∀ row ∈ g.rows, row ∈ rows ∧ rowPath w row = g.path) ∧
      g.name = g.path.getLast?.getD "" ∧
      g.hierarchyId = (g.rows.findSome? (·.hierarchyId)).getD (Text.slugPath g.path) := by
  rw [group_fst] at h
  obtain ⟨b, hb, hg⟩ := List.mem_filterMap.mp h
  obtain ⟨hpath, hname, hrows, hid⟩ := ofBucket_eq_some hg
  obtain ⟨hkey, members⟩ := mem_buckets hb
  obtain ⟨q, hq, hqb⟩ := List.mem_map.mp hkey
  have ne : g.path ≠ [] := by
    rw [hpath, ← hqb]
    exact (mem_keyedRows.mp hq).2.2
  refine ⟨ne, ?_, ?_, hpath ▸ hid⟩
  · intro row hrow
    rw [hrows] at hrow
    have := mem_keyedRows.mp (members row ((mem_stableSort _ _ row).mp hrow))
    exact ⟨this.1, by rw [hpath]; exact this.2.1.symm⟩
  · rw [hname, ← hpath, List.getLast?_eq_getLast_of_ne_nil ne]
    rfl

theorem filterMap_eq_map_of_isSome {α β γ : Type} {f : α → Option β} {g : β → γ} {h : α → γ}
    (xs : List α) (defined : ∀ a ∈ xs, (f a).isSome = true)
    (agrees : ∀ a b, f a = some b → g b = h a) : (xs.filterMap f).map g = xs.map h := by
  induction xs with
  | nil => rfl
  | cons a xs ih =>
    obtain ⟨b, hb⟩ := Option.isSome_iff_exists.mp (defined a (by simp))
    rw [List.filterMap_cons, hb, List.map_cons, List.map_cons, agrees a b hb,
      ih fun a' ha' => defined a' (by simp [ha'])]

/-- One group for each path that a row has, in the order of their first rows. -/
theorem map_path_group (w : Window) (rows : List HierarchyRow) :
    (group w rows).1.map (·.path) = distinct ((rows.map (rowPath w)).filter (· ≠ [])) := by
  have keys : (keyedRows w rows).map (·.1) = (rows.map (rowPath w)).filter (· ≠ []) := by
    rw [keyedRows, List.filter_map, List.map_map, List.filter_map]
    rfl
  rw [group_fst, filterMap_eq_map_of_isSome (h := fun b => b.1), buckets_eq, List.map_map, ← keys]
  · exact List.map_id _
  · intro b hb
    refine ofBucket_isSome ?_
    rw [buckets_eq] at hb
    obtain ⟨k, hk, rfl⟩ := List.mem_map.mp hb
    obtain ⟨q, hq, rfl⟩ := List.mem_map.mp (mem_distinct.mp hk)
    exact List.ne_nil_of_mem (List.mem_map_of_mem (List.mem_filter.mpr ⟨hq, by simp⟩))
  · intro b g hg
    exact (ofBucket_eq_some hg).1

theorem nodup_map_path_group (w : Window) (rows : List HierarchyRow) :
    ((group w rows).1.map (·.path)).Nodup := by
  rw [map_path_group]
  exact nodup_distinct _

theorem mem_map_path_group {w : Window} {rows : List HierarchyRow} {path : List String} :
    path ∈ (group w rows).1.map (·.path) ↔ path ≠ [] ∧ ∃ row ∈ rows, rowPath w row = path := by
  rw [map_path_group, mem_distinct, List.mem_filter, List.mem_map]
  simp only [decide_eq_true_eq]
  exact and_comm

/-! ## Placeholders -/

/-- The leading parts that groups need, each with the group that needs it. -/
def needed (groups : List RowGroup) : List (RowGroup × List String) :=
  groups.flatMap fun g => (LevelPath.ancestors g.path).map fun a => (g, a)

/-- Discovers one leading part. -/
def discover (present : List (List String)) (found : List Placeholder)
    (q : RowGroup × List String) : List Placeholder :=
  if present.contains q.2 || found.any (·.path == q.2) then found else found ++ [placeholder q.1 q.2]

theorem discovered_eq (groups : List RowGroup) :
    discovered groups = (needed groups).foldl (discover (groups.map (·.path))) [] := by
  unfold discovered needed
  rw [List.foldl_flatMap]
  simp only [List.foldl_map, discover, List.contains_eq_mem]

/-- What holds of the placeholders found among the leading parts seen so far. -/
structure Found (present : List (List String)) (seen : List (RowGroup × List String))
    (found : List Placeholder) : Prop where
  origin : ∀ h ∈ found, ∃ q ∈ seen, h = placeholder q.1 q.2 ∧ q.2 ∉ present
  nodup : (found.map (·.path)).Nodup
  covers : ∀ q ∈ seen, q.2 ∈ present ∨ q.2 ∈ found.map (·.path)

theorem found_discover {present : List (List String)} {seen : List (RowGroup × List String)}
    {found : List Placeholder} (h : Found present seen found) (q : RowGroup × List String) :
    Found present (seen ++ [q]) (discover present found q) := by
  have older : ∀ h' ∈ found, ∃ r ∈ seen ++ [q], h' = placeholder r.1 r.2 ∧ r.2 ∉ present := by
    intro h' hh'
    obtain ⟨r, hr, rest⟩ := h.origin h' hh'
    exact ⟨r, List.mem_append_left _ hr, rest⟩
  unfold discover
  split_ifs with known
  · refine ⟨older, h.nodup, fun r hr => ?_⟩
    rcases List.mem_append.mp hr with hr | hr
    · exact h.covers r hr
    · rw [List.mem_singleton.mp hr]
      rw [Bool.or_eq_true, List.contains_iff_mem, List.any_eq_true] at known
      rcases known with known | ⟨h', hh', same⟩
      · exact Or.inl known
      · exact Or.inr (List.mem_map.mpr ⟨h', hh', by simpa using same⟩)
  · rw [Bool.or_eq_true, List.contains_iff_mem, List.any_eq_true, not_or] at known
    have fresh : q.2 ∉ found.map (·.path) := by
      intro mem
      obtain ⟨h', hh', same⟩ := List.mem_map.mp mem
      exact known.2 ⟨h', hh', by simpa using same⟩
    refine ⟨fun h' hh' => ?_, ?_, fun r hr => ?_⟩
    · rcases List.mem_append.mp hh' with hh' | hh'
      · exact older h' hh'
      · rw [List.mem_singleton.mp hh']
        exact ⟨q, by simp, rfl, known.1⟩
    · rw [List.map_append, List.nodup_append_comm, List.map_singleton, List.singleton_append,
        List.nodup_cons]
      exact ⟨fresh, h.nodup⟩
    · rw [List.map_append, List.mem_append]
      rcases List.mem_append.mp hr with hr | hr
      · rcases h.covers r hr with hp | hp
        · exact Or.inl hp
        · exact Or.inr (Or.inl hp)
      · rw [List.mem_singleton.mp hr]
        exact Or.inr (Or.inr (by simp [placeholder]))

theorem found_discovered (groups : List RowGroup) :
    Found (groups.map (·.path)) (needed groups) (discovered groups) := by
  have run : ∀ (todo seen : List (RowGroup × List String)) (found : List Placeholder),
      Found (groups.map (·.path)) seen found →
      Found (groups.map (·.path)) (seen ++ todo)
        (todo.foldl (discover (groups.map (·.path))) found) := by
    intro todo
    induction todo with
    | nil => intro seen found h; simpa using h
    | cons q todo ih =>
      intro seen found h
      have := ih (seen ++ [q]) _ (found_discover h q)
      simpa using this
  rw [discovered_eq]
  exact run (needed groups) [] [] ⟨by simp, by simp, by simp⟩

theorem mem_needed {groups : List RowGroup} {q : RowGroup × List String} :
    q ∈ needed groups ↔ q.1 ∈ groups ∧ q.2 ∈ LevelPath.ancestors q.1.path := by
  rw [needed, List.mem_flatMap]
  constructor
  · rintro ⟨g, hg, hq⟩
    obtain ⟨a, ha, rfl⟩ := List.mem_map.mp hq
    exact ⟨hg, ha⟩
  · rintro ⟨hg, ha⟩
    exact ⟨q.1, hg, List.mem_map.mpr ⟨q.2, ha, rfl⟩⟩

/-- Every placeholder stands for a leading part that some group needs and no group has. -/
theorem mem_missingAncestors {groups : List RowGroup} {h : Placeholder}
    (mem : h ∈ missingAncestors groups) : ∃ g ∈ groups, ∃ a ∈ LevelPath.ancestors g.path,
      h = placeholder g a ∧ a ∉ groups.map (·.path) := by
  obtain ⟨q, hq, rest⟩ := (found_discovered groups).origin h ((mem_stableSort _ _ h).mp mem)
  obtain ⟨hg, ha⟩ := mem_needed.mp hq
  exact ⟨q.1, hg, q.2, ha, rest⟩

theorem nodup_missingAncestors (groups : List RowGroup) :
    ((missingAncestors groups).map (·.path)).Nodup :=
  (((perm_stableSort _ _).map _).nodup_iff).mpr (found_discovered groups).nodup

/-- The paths of the placeholders. -/
theorem mem_map_path_missingAncestors {groups : List RowGroup} {path : List String} :
    path ∈ (missingAncestors groups).map (·.path) ↔
      path ∉ groups.map (·.path) ∧ ∃ g ∈ groups, path ∈ LevelPath.ancestors g.path := by
  constructor
  · intro mem
    obtain ⟨h, hh, rfl⟩ := List.mem_map.mp mem
    obtain ⟨g, hg, a, ha, rfl, absent⟩ := mem_missingAncestors hh
    exact ⟨absent, g, hg, ha⟩
  · rintro ⟨absent, g, hg, ha⟩
    rcases (found_discovered groups).covers (g, path) (mem_needed.mpr ⟨hg, ha⟩) with hp | hp
    · exact absurd hp absent
    · exact ((perm_stableSort _ _).map _).mem_iff.mpr hp

/-! ## Hierarchy ids -/

theorem trimmed_group {w : Window} {rows : List HierarchyRow}
    (trimmed : ∀ row ∈ rows, ∀ k, row.hierarchyId = some k → Text.trim k = k) {g : RowGroup}
    (h : g ∈ (group w rows).1) : Text.trim g.hierarchyId = g.hierarchyId := by
  obtain ⟨-, members, -, hid⟩ := mem_group h
  rw [hid]
  cases found : g.rows.findSome? (·.hierarchyId) with
  | none => exact Text.trim_of_solid (Text.solid_slugPath g.path)
  | some k =>
    obtain ⟨row, hrow, hk⟩ := List.exists_of_findSome?_eq_some found
    exact trimmed row (members row hrow).1 k hk

theorem trimmed_missingAncestors {groups : List RowGroup} {h : Placeholder}
    (mem : h ∈ missingAncestors groups) : Text.trim h.hierarchyId = h.hierarchyId := by
  obtain ⟨g, -, a, -, rfl, -⟩ := mem_missingAncestors mem
  exact Text.trim_of_solid
    (Text.solid_append (Text.solid_of_all (by decide)) (Text.solid_slugPath a))

end Rollup.RowGroup.Legacy

import Mathlib.Data.List.Basic
import Mathlib.Tactic.SplitIfs
import Rollup.Proofs.Buckets
import Rollup.Proofs.Import.Keys
import Rollup.Proofs.RowGroup.Keyed
import Rollup.Proofs.Text.Slug
import Rollup.RowGroup.Standard

/-!
# Groups of standard rows

A group has the hierarchy id that holds its rows together, or the slug of its name.

Results:

* `trimmed_group`: hierarchy ids are trimmed.
* `mem_group_or_error`: every row belongs to a group or is reported.
* `group_of_blocks`: rows that already stand together by their ids.
-/

namespace Rollup.RowGroup.Standard

/-! ## Hierarchy ids -/

theorem ofBucket_id {w : Window} {key : Key} {rows : List HierarchyRow} {g : RowGroup}
    (h : ofBucket w key rows = some (.ok g)) :
    key = .id g.hierarchyId ∨ ∃ name, g.hierarchyId = Text.slug name := by
  unfold ofBucket at h
  split at h
  · cases h
  · dsimp only at h
    cases key with
    | id k =>
      dsimp only at h
      split_ifs at h
      · cases Option.some.inj h
      · obtain rfl := Except.ok.inj (Option.some.inj h)
        exact Or.inl rfl
    | name n =>
      dsimp only at h
      split_ifs at h
      · cases Option.some.inj h
      · obtain rfl := Except.ok.inj (Option.some.inj h)
        exact Or.inr ⟨_, rfl⟩

theorem mem_group {w : Window} {rows : List HierarchyRow} {g : RowGroup}
    (h : g ∈ (group w rows).1) :
    ∃ b ∈ buckets (withId rows ++ (withoutId w (namedKeys w rows) rows).1),
      ofBucket w b.1 b.2 = some (.ok g) := by
  have mem := (mem_stableSort _ _ g).mp h
  obtain ⟨o, ho, hg⟩ := List.mem_filterMap.mp mem
  obtain ⟨b, hb, hbo⟩ := List.mem_filterMap.mp ho
  refine ⟨b, hb, ?_⟩
  cases o with
  | error e => cases hg
  | ok g' =>
    cases hg
    exact hbo

/-- The key of a row with an id is that id, and the key of a row without one is the id of another
    row or a name. -/
theorem key_id {w : Window} {rows : List HierarchyRow} {k : String} {row : HierarchyRow}
    (h : (Key.id k, row) ∈ withId rows ++ (withoutId w (namedKeys w rows) rows).1) :
    ∃ row' ∈ rows, row'.hierarchyId = some k := by
  rcases List.mem_append.mp h with h | h
  · obtain ⟨row', hrow', h⟩ := List.mem_filterMap.mp h
    obtain ⟨k', hk', e⟩ := Option.map_eq_some_iff.mp h
    cases e
    exact ⟨row, hrow', hk'⟩
  · obtain ⟨row', -, h⟩ := List.mem_filterMap.mp h
    obtain ⟨name, -, e⟩ := Option.map_eq_some_iff.mp h
    cases found : (namedKeys w rows).lookup name with
    | none => rw [found] at e; cases e
    | some key =>
      rw [found] at e
      cases e
      obtain ⟨row'', hrow'', h⟩ := List.mem_filterMap.mp (mem_of_lookup found)
      refine ⟨row'', hrow'', ?_⟩
      split at h
      · rename_i hid _
        cases h
        exact hid
      · cases h

theorem trimmed_group {w : Window} {rows : List HierarchyRow}
    (trimmed : ∀ row ∈ rows, ∀ k, row.hierarchyId = some k → Text.trim k = k) {g : RowGroup}
    (h : g ∈ (group w rows).1) : Text.trim g.hierarchyId = g.hierarchyId := by
  obtain ⟨b, hb, hg⟩ := mem_group h
  rcases ofBucket_id hg with hkey | ⟨name, hslug⟩
  · obtain ⟨q, hq, hqb⟩ := List.mem_map.mp (mem_buckets hb).1
    obtain ⟨key, row⟩ := q
    obtain rfl : key = Key.id g.hierarchyId := hqb.trans hkey
    obtain ⟨row', hrow', hid⟩ := key_id hq
    exact trimmed row' hrow' _ hid
  · rw [hslug]
    exact Text.trim_of_solid (Text.solid_slug name)

/-! ## Rows that belong to no group -/

/-- A group has the rows of its bucket and a hierarchy id. -/
theorem ofBucket_eq_ok {w : Window} {key : Key} {rows : List HierarchyRow} {g : RowGroup}
    (h : ofBucket w key rows = some (.ok g)) :
    g.rows = leadershipOrder rows ∧ g.hierarchyId ≠ "" := by
  unfold ofBucket at h
  split at h
  · cases h
  · rename_i leader others order
    dsimp only at h
    split_ifs at h with empty
    · cases Option.some.inj h
    · obtain rfl := Except.ok.inj (Option.some.inj h)
      exact ⟨order.symm, empty⟩

/-- What a row without an id and a name is reported with. -/
def nameless (number : Nat) : String :=
  rowLabel number ++ "no HIERARCHY_ID, HIERARCHY_NAME or LEVEL value"

/-- What a bucket is reported with if its name has no slug. -/
def underivable (number : Nat) (name : String) : String :=
  rowLabel number ++ "cannot derive a HIERARCHY_ID from name '" ++ name ++ "'"

/-- The key of a row with a name says that the row has that name and no id. -/
theorem key_name {w : Window} {rows : List HierarchyRow} {name : String} {row : HierarchyRow}
    (h : (Key.name name, row) ∈ withId rows ++ (withoutId w (namedKeys w rows) rows).1) :
    row ∈ rows ∧ row.hierarchyId = none ∧ rowName w row = some name := by
  rcases List.mem_append.mp h with h | h
  · obtain ⟨row', -, h⟩ := List.mem_filterMap.mp h
    obtain ⟨k, -, e⟩ := Option.map_eq_some_iff.mp h
    cases e
  · obtain ⟨row', hrow', h⟩ := List.mem_filterMap.mp h
    obtain ⟨own, hown, e⟩ := Option.map_eq_some_iff.mp h
    obtain ⟨key, rfl⟩ := Prod.mk.inj e
    obtain ⟨mem, idLess⟩ := List.mem_filter.mp hrow'
    refine ⟨mem, by simpa using idLess, ?_⟩
    cases found : (namedKeys w rows).lookup own with
    | none =>
      rw [found] at key
      cases key
      exact hown
    | some k =>
      rw [found] at key
      obtain ⟨row'', -, h⟩ := List.mem_filterMap.mp (mem_of_lookup found)
      split at h
      · cases h
        cases key
      · cases h

/-- A row with an id or a name has a key. -/
theorem exists_key {w : Window} {rows : List HierarchyRow} {row : HierarchyRow} (mem : row ∈ rows)
    (named : ¬ (row.hierarchyId = none ∧ rowName w row = none)) :
    ∃ key, (key, row) ∈ withId rows ++ (withoutId w (namedKeys w rows) rows).1 := by
  cases hid : row.hierarchyId with
  | some k =>
    refine ⟨.id k, List.mem_append_left _ (List.mem_filterMap.mpr ⟨row, mem, ?_⟩)⟩
    rw [hid]
    rfl
  | none =>
    cases hname : rowName w row with
    | none => exact absurd ⟨hid, hname⟩ named
    | some name =>
      refine ⟨((namedKeys w rows).lookup name).getD (.name name), List.mem_append_right _
        (List.mem_filterMap.mpr ⟨row, List.mem_filter.mpr ⟨mem, by simp [hid]⟩, ?_⟩)⟩
      rw [hname]
      rfl

/-- Where all rows of a bucket have one name, it is the name of the bucket. -/
theorem ownName_of_bucket {w : Window} {n : String} {rows : List HierarchyRow}
    (names : ∀ r ∈ rows, rowName w r = some n) {leader : HierarchyRow} {others : List HierarchyRow}
    (order : leadershipOrder rows = leader :: others) :
    ((leader :: others).findSome? (·.name)).or (rowName w leader) = some n := by
  have within : ∀ r ∈ leader :: others, r ∈ rows :=
    fun r hr => (mem_stableSort _ _ r).mp (order ▸ hr)
  cases found : (leader :: others).findSome? (·.name) with
  | none => exact names leader (within leader (by simp))
  | some x =>
    obtain ⟨r, hr, hx⟩ := List.exists_of_findSome?_eq_some found
    have named := names r (within r hr)
    rw [rowName, hx] at named
    exact named

/-- A bucket of an id is a group, and so is one of a name that has a slug. -/
theorem exists_ofBucket {w : Window} {key : Key} {rows : List HierarchyRow} (filled : rows ≠ [])
    (ids : ∀ k, key = .id k → k ≠ "")
    (names : ∀ n, key = .name n → Text.slug n ≠ "" ∧ ∀ r ∈ rows, rowName w r = some n) :
    ∃ g, ofBucket w key rows = some (.ok g) := by
  unfold ofBucket
  cases order : leadershipOrder rows with
  | nil =>
    have length : (leadershipOrder rows).length = rows.length := length_stableSort _ rows
    rw [order, List.length_nil] at length
    exact absurd (List.length_eq_zero_iff.mp length.symm) filled
  | cons leader others =>
    cases key with
    | id k =>
      dsimp only
      rw [if_neg (ids k rfl)]
      exact ⟨_, rfl⟩
    | name n =>
      obtain ⟨slug, names⟩ := names n rfl
      dsimp only
      rw [ownName_of_bucket names order, Option.getD_some, if_neg slug]
      exact ⟨_, rfl⟩

/-- A bucket of a name without a slug is reported with its leading row. -/
theorem ofBucket_of_slugless {w : Window} {n : String} {rows : List HierarchyRow}
    (empty : Text.slug n = "") (names : ∀ r ∈ rows, rowName w r = some n) {leader : HierarchyRow}
    {others : List HierarchyRow} (order : leadershipOrder rows = leader :: others) :
    ofBucket w (.name n) rows = some (.error (underivable leader.number n)) := by
  unfold ofBucket
  rw [order]
  dsimp only
  rw [ownName_of_bucket names order, Option.getD_some, if_pos empty]
  rfl

/-- A bucket is a group, or it is held together by a name that has no slug. -/
theorem ofBucket_of_mem {w : Window} {key : Key} {rows : List HierarchyRow} {row : HierarchyRow}
    (mem : row ∈ rows) (ids : ∀ k, key = .id k → k ≠ "")
    (names : ∀ n, key = .name n → ∀ r ∈ rows, rowName w r = some n) :
    (∃ g, ofBucket w key rows = some (.ok g) ∧ row ∈ g.rows) ∨
      ∃ n, key = .name n ∧ Text.slug n = "" ∧ ∃ leader ∈ rows,
        ofBucket w key rows = some (.error (underivable leader.number n)) := by
  have mem' : row ∈ leadershipOrder rows := (mem_stableSort _ _ row).mpr mem
  by_cases slugless : ∃ n, key = .name n ∧ Text.slug n = ""
  · obtain ⟨n, rfl, empty⟩ := slugless
    obtain ⟨leader, others, order⟩ := List.exists_cons_of_ne_nil (List.ne_nil_of_mem mem')
    have within : leader ∈ rows := (mem_stableSort _ _ leader).mp (order ▸ List.mem_cons_self)
    exact Or.inr ⟨n, rfl, empty, leader, within, ofBucket_of_slugless empty (names n rfl) order⟩
  · obtain ⟨g, hg⟩ := exists_ofBucket (List.ne_nil_of_mem mem) ids fun n hn =>
      ⟨fun empty => slugless ⟨n, hn, empty⟩, names n hn⟩
    exact Or.inl ⟨g, hg, (ofBucket_eq_ok hg).1 ▸ mem'⟩

/-- Every row belongs to a group, or it is reported: it has neither an id nor a name, or it has no
    id and its name has no slug. -/
theorem mem_group_or_error {w : Window} {rows : List HierarchyRow}
    (ids : ∀ row ∈ rows, ∀ k, row.hierarchyId = some k → k ≠ "") {row : HierarchyRow}
    (mem : row ∈ rows) :
    (∃ g ∈ (group w rows).1, row ∈ g.rows) ∨
      (row.hierarchyId = none ∧ rowName w row = none ∧
        nameless row.number ∈ (group w rows).2) ∨
      ∃ name, row.hierarchyId = none ∧ rowName w row = some name ∧ Text.slug name = "" ∧
        ∃ leader ∈ rows, leader.hierarchyId = none ∧ rowName w leader = some name ∧
          underivable leader.number name ∈ (group w rows).2 := by
  by_cases named : row.hierarchyId = none ∧ rowName w row = none
  · refine Or.inr (Or.inl ⟨named.1, named.2, List.mem_append_left _ ?_⟩)
    refine List.mem_filterMap.mpr ⟨row, List.mem_filter.mpr ⟨mem, by simp [named.1]⟩, ?_⟩
    rw [named.2]
    rfl
  · obtain ⟨key, keyed⟩ := exists_key mem named
    obtain ⟨b, hb, rfl, held⟩ := exists_bucket keyed
    obtain ⟨-, members⟩ := mem_buckets hb
    have filled : ∀ k, b.1 = .id k → k ≠ "" := by
      intro k hk
      obtain ⟨row', hrow', hid⟩ := key_id (hk ▸ members row held)
      exact ids row' hrow' k hid
    have outcome := ofBucket_of_mem held filled fun n hn r hr => (key_name (hn ▸ members r hr)).2.2
    rcases outcome with ⟨g, hg, within⟩ | ⟨name, hname, empty, leader, hleader, hg⟩
    · refine Or.inl ⟨g, (mem_stableSort _ _ g).mpr ?_, within⟩
      exact List.mem_filterMap.mpr ⟨_, List.mem_filterMap.mpr ⟨b, hb, hg⟩, rfl⟩
    · obtain ⟨-, hid, own⟩ := key_name (hname ▸ members row held)
      obtain ⟨inFile, hid', own'⟩ := key_name (hname ▸ members leader hleader)
      refine Or.inr (Or.inr ⟨name, hid, own, empty, leader, inFile, hid', own', ?_⟩)
      refine List.mem_append_right _ ?_
      exact List.mem_filterMap.mpr ⟨_, List.mem_filterMap.mpr ⟨b, hb, hg⟩, rfl⟩

/-! ## Rows that stand together -/

/-- The group of rows with a hierarchy id that agree on the name and on the path. -/
theorem ofBucket_of_agree {w : Window} {g : RowGroup} (filled : g.hierarchyId ≠ "")
    (named : ∀ row ∈ g.rows, row.name = some g.name)
    (path : ∀ row ∈ g.rows, LevelPath.resolve w row.levels = g.path)
    (sorts : ∀ row ∈ g.rows,
      LevelPath.resolveSorts w row.levels row.levelSorts = g.pathSorts) :
    ofBucket w (.id g.hierarchyId) g.rows = some (.ok g.led) := by
  have mem := g.leader_led_mem
  have rows : leadershipOrder g.rows = g.led.leader :: g.led.others := g.rows_led.symm
  unfold ofBucket
  rw [rows]
  simp only [List.findSome?_cons, named _ mem, Option.some_or, Option.getD_some, path _ mem,
    sorts _ mem]
  rw [if_neg filled, ← g.led_eq]

/-- Rows that stand together by their hierarchy ids, in the order of the file, are grouped as they
    stand, but for the order of leadership. -/
theorem group_of_blocks {w : Window} {groups : List RowGroup}
    (distinctIds : (groups.map (·.hierarchyId)).Nodup)
    (ids : ∀ g ∈ groups, ∀ row ∈ g.rows, row.hierarchyId = some g.hierarchyId)
    (whole : ∀ g ∈ groups, ofBucket w (.id g.hierarchyId) g.rows = some (.ok g.led))
    (order : groups.Pairwise fun a b => a.firstNumber ≤ b.firstNumber) :
    group w (groups.flatMap RowGroup.rows) = (groups.map RowGroup.led, []) := by
  have keyed : withId (groups.flatMap RowGroup.rows) =
      groups.flatMap fun g => g.rows.map fun row => (Key.id g.hierarchyId, row) := by
    rw [withId, List.filterMap_flatMap]
    refine List.flatMap_congr fun g hg => ?_
    rw [← List.filterMap_eq_map]
    refine List.filterMap_congr fun row hrow => ?_
    rw [ids g hg row hrow]
    rfl
  have idLess : (groups.flatMap RowGroup.rows).filter (·.hierarchyId.isNone) = [] := by
    rw [List.filter_eq_nil_iff]
    intro row hrow
    obtain ⟨g, hg, hrow⟩ := List.mem_flatMap.mp hrow
    rw [ids g hg row hrow]
    simp
  have collected : buckets (withId (groups.flatMap RowGroup.rows)) =
      groups.map fun g => (Key.id g.hierarchyId, g.rows) := by
    rw [keyed]
    refine buckets_flatMap (fun g : RowGroup => Key.id g.hierarchyId) RowGroup.rows ?_ fun g _ =>
      List.cons_ne_nil _ _
    have nodup := List.Nodup.map (f := Key.id) (fun a b same => Key.id.inj same) distinctIds
    rwa [List.map_map] at nodup
  have outcomes : (groups.map fun g => (Key.id g.hierarchyId, g.rows)).filterMap
      (fun b => ofBucket w b.1 b.2) = (groups.map RowGroup.led).map Except.ok := by
    rw [List.filterMap_map, List.map_map, ← List.filterMap_eq_map]
    exact List.filterMap_congr fun g hg => whole g hg
  have sorted : stableSort (fun a b : RowGroup => decide (a.firstNumber ≤ b.firstNumber))
      (groups.map RowGroup.led) = groups.map RowGroup.led :=
    stableSort_of_sorted (by simpa [List.pairwise_map] using order)
  generalize groups.map RowGroup.led = led at outcomes sorted ⊢
  unfold group withoutId
  simp only [idLess, List.filterMap_nil, List.append_nil, collected, outcomes, List.filterMap_map]
  rw [show (Except.toOption ∘ Except.ok : RowGroup → Option RowGroup) = some from rfl,
    List.filterMap_some, sorted]
  simp

end Rollup.RowGroup.Standard

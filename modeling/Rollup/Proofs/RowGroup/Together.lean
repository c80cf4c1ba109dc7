import Mathlib.Data.List.Basic
import Mathlib.Tactic.SplitIfs
import Rollup.Proofs.HierarchyRow
import Rollup.Proofs.Import.Outcome
import Rollup.Proofs.RowGroup.Keyed
import Rollup.Proofs.RowGroup.Standard

/-!
# Which standard rows stand together

Ids claim names: a row without an id belongs to the first row that has an id and its name. Only the
rows of a name that no row with an id has form a group of their own, and they are reported instead
where the name has no slug.

Results:

* `key?_eq_name_iff`, `key?_of_first`: what a row without an id is grouped by.
* `keyedBy_group`: the groups hold the rows with one key.
* `exists_group_iff`: the rows that are in a group.
* `mem_errors_iff`: what is reported.
* `exists_group_of_ids`: the group of an id, where all rows have ids.
* `isGrouping_group`: all of this, without keys.
-/

namespace Rollup.RowGroup.Standard

variable {w : Window} {rows : List HierarchyRow} {row : HierarchyRow} {name : String}

/-! ## Keys of rows -/

/-- The first row that has an id and the name. -/
def firstNamed? (w : Window) (rows : List HierarchyRow) (name : String) : Option HierarchyRow :=
  rows.find? fun row => row.hierarchyId.isSome && rowName w row == some name

theorem lookup_namedKeys (w : Window) (rows : List HierarchyRow) (name : String) :
    (namedKeys w rows).lookup name =
      (firstNamed? w rows name).bind fun row => row.hierarchyId.map Key.id := by
  induction rows with
  | nil => rfl
  | cons row rows ih =>
    rw [namedKeys, firstNamed?] at ih ⊢
    rw [List.filterMap_cons, List.find?_cons]
    cases hid : row.hierarchyId with
    | none => simpa using ih
    | some k =>
      cases hname : rowName w row with
      | none => simpa using ih
      | some own =>
        by_cases same : name = own
        · subst same
          simp [hid]
        · have apart : (name == own) = false := beq_eq_false_iff_ne.mpr same
          have apart' : (own == name) = false := beq_eq_false_iff_ne.mpr (Ne.symm same)
          simpa [List.lookup_cons, apart, apart'] using ih

/-- What a row is grouped by, if by anything. -/
def key? (w : Window) (rows : List HierarchyRow) (row : HierarchyRow) : Option Key :=
  match row.hierarchyId with
  | some k => some (.id k)
  | none => (rowName w row).map fun name => ((namedKeys w rows).lookup name).getD (.name name)

theorem key?_of_id {k : String} (hid : row.hierarchyId = some k) :
    key? w rows row = some (.id k) := by
  rw [key?, hid]

theorem key?_of_name (hid : row.hierarchyId = none) (named : rowName w row = some name) :
    key? w rows row = some (((firstNamed? w rows name).bind fun r =>
      r.hierarchyId.map Key.id).getD (.name name)) := by
  rw [key?, hid, named, Option.map_some, lookup_namedKeys]

theorem key?_eq_none_iff :
    key? w rows row = none ↔ row.hierarchyId = none ∧ rowName w row = none := by
  unfold key?
  split
  · rename_i k hid
    simp [hid]
  · rename_i hid
    simp [hid]

/-- A row that is found by a name has an id and that name. -/
theorem of_firstNamed? {first : HierarchyRow} (h : firstNamed? w rows name = some first) :
    first ∈ rows ∧ ∃ k, first.hierarchyId = some k ∧ rowName w first = some name := by
  have found := List.find?_some h
  rw [Bool.and_eq_true, Option.isSome_iff_exists, beq_iff_eq] at found
  obtain ⟨⟨k, hid⟩, named⟩ := found
  exact ⟨List.mem_of_find?_eq_some h, k, hid, named⟩

/-- A row without an id has the key of the first row with an id and its name. -/
theorem key?_of_first (hid : row.hierarchyId = none) (named : rowName w row = some name)
    {first : HierarchyRow} (h : firstNamed? w rows name = some first) :
    key? w rows row = key? w rows first := by
  obtain ⟨-, k, hk, -⟩ := of_firstNamed? h
  rw [key?_of_name hid named, h, key?_of_id hk, Option.bind_some, hk]
  rfl

/-- An id by which a row is grouped is that of some row. -/
theorem exists_of_key?_id (mem : row ∈ rows) {k : String} (h : key? w rows row = some (.id k)) :
    ∃ r ∈ rows, r.hierarchyId = some k := by
  cases hid : row.hierarchyId with
  | some k' =>
    rw [key?_of_id hid] at h
    cases h
    exact ⟨row, mem, hid⟩
  | none =>
    cases named : rowName w row with
    | none =>
      rw [key?_eq_none_iff.mpr ⟨hid, named⟩] at h
      cases h
    | some own =>
      cases found : firstNamed? w rows own with
      | none =>
        rw [key?_of_name hid named, found] at h
        cases h
      | some first =>
        obtain ⟨inFile, k', hk, -⟩ := of_firstNamed? found
        rw [key?_of_first hid named found, key?_of_id hk] at h
        cases h
        exact ⟨first, inFile, hk⟩

/-- The rows that are grouped by a name. -/
theorem key?_eq_name_iff : key? w rows row = some (.name name) ↔
    row.hierarchyId = none ∧ rowName w row = some name ∧ firstNamed? w rows name = none := by
  cases hid : row.hierarchyId with
  | some k => simp [key?_of_id hid]
  | none =>
    cases named : rowName w row with
    | none =>
      rw [key?_eq_none_iff.mpr ⟨hid, named⟩]
      simp
    | some own =>
      cases found : firstNamed? w rows own with
      | some first =>
        obtain ⟨-, k, hk, -⟩ := of_firstNamed? found
        rw [key?_of_first hid named found, key?_of_id hk]
        constructor
        · intro h
          cases h
        · rintro ⟨-, same, none⟩
          rw [← Option.some.inj same, found] at none
          cases none
      | none =>
        rw [key?_of_name hid named, found]
        constructor
        · intro h
          cases h
          exact ⟨rfl, rfl, found⟩
        · rintro ⟨-, same, -⟩
          rw [Option.some.inj same]
          rfl

/-! ## Groups -/

/-- The rows with an id, then the others. -/
def arranged (rows : List HierarchyRow) : List HierarchyRow :=
  rows.filter (·.hierarchyId.isSome) ++ rows.filter (·.hierarchyId.isNone)

theorem perm_arranged (rows : List HierarchyRow) : (arranged rows).Perm rows := by
  have parts := List.filter_append_perm (fun r : HierarchyRow => r.hierarchyId.isSome) rows
  have rest : (fun r : HierarchyRow => !r.hierarchyId.isSome) =
      fun r : HierarchyRow => r.hierarchyId.isNone := by
    funext r
    cases r.hierarchyId <;> rfl
  rwa [rest] at parts

/-- The rows in the order in which they are collected, each with its key. -/
theorem withKey_arranged (w : Window) (rows : List HierarchyRow) :
    withId rows ++ (withoutId w (namedKeys w rows) rows).1 =
      withKey (key? w rows) (arranged rows) := by
  rw [withKey, arranged, List.filterMap_append, List.filterMap_filter]
  congr 1
  · refine List.filterMap_congr fun r _ => ?_
    cases hid : r.hierarchyId with
    | none => rfl
    | some k =>
      rw [key?_of_id hid]
      rfl
  · refine List.filterMap_congr fun r hr => ?_
    have hid : r.hierarchyId = none := by simpa using (List.mem_filter.mp hr).2
    rw [key?, hid, Option.map_map]
    rfl

/-- The groups before they are sorted. -/
theorem perm_group (w : Window) (rows : List HierarchyRow) :
    (group w rows).1.Perm ((buckets (withKey (key? w rows) (arranged rows))).filterMap fun b =>
      (ofBucket w b.1 b.2).bind Except.toOption) := by
  rw [← withKey_arranged, ← List.filterMap_filterMap]
  exact perm_stableSort _ _

theorem bind_toOption_eq_some {o : Option (Except String RowGroup)} {g : RowGroup} :
    o.bind Except.toOption = some g ↔ o = some (.ok g) := by
  rcases o with _ | ⟨e | g'⟩ <;> simp [Except.toOption]

/-- The groups hold the rows with one key. -/
theorem keyedBy_group (w : Window) (rows : List HierarchyRow) :
    KeyedBy (key? w rows) rows (group w rows).1 :=
  (keyedBy_buckets (perm_arranged rows) fun _ _ hg =>
    (ofBucket_eq_ok (bind_toOption_eq_some.mp hg)).1).of_perm (perm_group w rows)

/-! ## Rows of one key -/

/-- The rows with a key, in the order in which they are collected. -/
def keyed (w : Window) (rows : List HierarchyRow) (key : Key) : List HierarchyRow :=
  (arranged rows).filter (key? w rows · = some key)

theorem mem_keyed {key : Key} : row ∈ keyed w rows key ↔ row ∈ rows ∧ key? w rows row = some key := by
  rw [keyed, List.mem_filter, (perm_arranged rows).mem_iff, decide_eq_true_eq]

/-- The buckets are the rows of the keys that rows have. -/
theorem mem_buckets_iff {key : Key} {held : List HierarchyRow} :
    (key, held) ∈ buckets (withKey (key? w rows) (arranged rows)) ↔
      (∃ row ∈ rows, key? w rows row = some key) ∧ held = keyed w rows key := by
  constructor
  · intro mem
    obtain ⟨⟨k, row⟩, hq, rfl⟩ := List.mem_map.mp (mem_buckets mem).1
    obtain ⟨hrow, hkey⟩ := mem_withKey.mp hq
    exact ⟨⟨row, (perm_arranged rows).mem_iff.mp hrow, hkey⟩, bucket_withKey mem⟩
  · rintro ⟨⟨row, hrow, hkey⟩, rfl⟩
    obtain ⟨⟨k, held⟩, mem, rfl, -⟩ :=
      exists_bucket (mem_withKey.mpr ⟨(perm_arranged rows).mem_iff.mpr hrow, hkey⟩)
    obtain rfl : held = keyed w rows k := bucket_withKey mem
    exact mem

theorem rowName_of_mem_keyed {n : String} (mem : row ∈ keyed w rows (.name n)) :
    rowName w row = some n :=
  (key?_eq_name_iff.mp (mem_keyed.mp mem).2).2.1

/-- The row that leads the rows with a key. -/
def leader? (w : Window) (rows : List HierarchyRow) (key : Key) : Option HierarchyRow :=
  (leadershipOrder (keyed w rows key)).head?

theorem exists_leader? {key : Key} (mem : row ∈ rows) (hkey : key? w rows row = some key) :
    ∃ leader, leader? w rows key = some leader := by
  have held : row ∈ leadershipOrder (keyed w rows key) :=
    (perm_leadershipOrder _).mem_iff.mpr (mem_keyed.mpr ⟨mem, hkey⟩)
  obtain ⟨leader, others, order⟩ := List.exists_cons_of_ne_nil (List.ne_nil_of_mem held)
  exact ⟨leader, by rw [leader?, order]; rfl⟩

theorem mem_of_leader? {key : Key} {leader : HierarchyRow}
    (h : leader? w rows key = some leader) : leader ∈ keyed w rows key :=
  (perm_leadershipOrder _).mem_iff.mp (List.mem_of_head? h)

/-- The rows of a name without a slug are reported with the row that leads them. -/
theorem ofBucket_keyed {n : String} (empty : Text.slug n = "") {leader : HierarchyRow}
    (h : leader? w rows (.name n) = some leader) :
    ofBucket w (.name n) (keyed w rows (.name n)) =
      some (.error (underivable leader.number n)) := by
  obtain ⟨others, order⟩ := List.head?_eq_some_iff.mp h
  exact ofBucket_of_slugless empty (fun _ hr => rowName_of_mem_keyed hr) order

section Mapped

variable (mapped : ∀ row ∈ rows, row.ReadIn .standard)

include mapped

/-- The rows of a key are a group, unless the key is a name without a slug. -/
theorem exists_ofBucket_keyed {key : Key} (mem : row ∈ rows) (hkey : key? w rows row = some key)
    (slugs : ∀ n, key = .name n → Text.slug n ≠ "") :
    ∃ g, ofBucket w key (keyed w rows key) = some (.ok g) := by
  refine exists_ofBucket (List.ne_nil_of_mem (mem_keyed.mpr ⟨mem, hkey⟩)) (fun k hk => ?_)
    fun n hn => ⟨slugs n hn, fun r hr => rowName_of_mem_keyed (hn ▸ hr)⟩
  obtain ⟨r, hr, hid⟩ := exists_of_key?_id mem (hk ▸ hkey)
  exact (mapped r hr).filled k hid

/-- The rows that are in a group: they have a key, and if it is a name, that has a slug. -/
theorem exists_group_iff (mem : row ∈ rows) : (∃ g ∈ (group w rows).1, row ∈ g.rows) ↔
    ∃ key, key? w rows row = some key ∧ ∀ n, key = .name n → Text.slug n ≠ "" := by
  constructor
  · rintro ⟨g, hg, hrow⟩
    obtain ⟨⟨key, bucket⟩, hb, made⟩ := List.mem_filterMap.mp ((perm_group w rows).mem_iff.mp hg)
    have made := bind_toOption_eq_some.mp made
    obtain ⟨-, rfl⟩ := mem_buckets_iff.mp hb
    rw [(ofBucket_eq_ok made).1, (perm_leadershipOrder _).mem_iff, mem_keyed] at hrow
    refine ⟨key, hrow.2, ?_⟩
    rintro n rfl empty
    obtain ⟨leader, led⟩ := exists_leader? mem hrow.2
    rw [ofBucket_keyed empty led] at made
    cases made
  · rintro ⟨key, hkey, slugs⟩
    obtain ⟨g, hg⟩ := exists_ofBucket_keyed mapped mem hkey slugs
    refine ⟨g, (perm_group w rows).mem_iff.mpr ?_, ?_⟩
    · exact List.mem_filterMap.mpr ⟨(key, keyed w rows key),
        mem_buckets_iff.mpr ⟨⟨row, mem, hkey⟩, rfl⟩, bind_toOption_eq_some.mpr hg⟩
    · rw [(ofBucket_eq_ok hg).1]
      exact (perm_leadershipOrder _).mem_iff.mpr (mem_keyed.mpr ⟨mem, hkey⟩)

/-- What is reported: the rows without a key, and for each name without a slug the row that leads
    those grouped by it. -/
theorem mem_errors_iff {e : String} : e ∈ (group w rows).2 ↔
    (∃ row ∈ rows, key? w rows row = none ∧ e = nameless row.number) ∨
      ∃ n leader, Text.slug n = "" ∧ leader? w rows (.name n) = some leader ∧
        e = underivable leader.number n := by
  have split : e ∈ (group w rows).2 ↔ e ∈ (withoutId w (namedKeys w rows) rows).2 ∨
      ∃ b ∈ buckets (withKey (key? w rows) (arranged rows)),
        ofBucket w b.1 b.2 = some (.error e) := by
    rw [← withKey_arranged]
    change e ∈ _ ++ _ ↔ _
    rw [List.mem_append]
    refine or_congr_right ?_
    rw [List.filterMap_filterMap, List.mem_filterMap]
    refine exists_congr fun b => and_congr_right fun _ => ?_
    rcases ofBucket w b.1 b.2 with _ | ⟨e' | g⟩ <;> simp
  rw [split]
  refine or_congr ?_ ⟨?_, ?_⟩
  · rw [withoutId, List.mem_filterMap]
    constructor
    · rintro ⟨r, hr, he⟩
      obtain ⟨mem, idLess⟩ := List.mem_filter.mp hr
      split_ifs at he with unnamed
      exact ⟨r, mem, key?_eq_none_iff.mpr ⟨by simpa using idLess, by simpa using unnamed⟩,
        (Option.some.inj he).symm⟩
    · rintro ⟨r, mem, none, rfl⟩
      obtain ⟨idLess, unnamed⟩ := key?_eq_none_iff.mp none
      exact ⟨r, List.mem_filter.mpr ⟨mem, by simp [idLess]⟩, by rw [unnamed]; rfl⟩
  · rintro ⟨⟨key, bucket⟩, hb, made⟩
    obtain ⟨⟨r, mem, hkey⟩, rfl⟩ := mem_buckets_iff.mp hb
    have slugless : ∃ n, key = .name n ∧ Text.slug n = "" := by
      by_contra none
      push Not at none
      obtain ⟨g, hg⟩ := exists_ofBucket_keyed mapped mem hkey none
      rw [hg] at made
      cases made
    obtain ⟨n, rfl, empty⟩ := slugless
    obtain ⟨leader, led⟩ := exists_leader? mem hkey
    rw [ofBucket_keyed empty led] at made
    cases made
    exact ⟨n, leader, empty, led, rfl⟩
  · rintro ⟨n, leader, empty, led, rfl⟩
    obtain ⟨mem, hkey⟩ := mem_keyed.mp (mem_of_leader? led)
    exact ⟨(.name n, keyed w rows (.name n)), mem_buckets_iff.mpr ⟨⟨leader, mem, hkey⟩, rfl⟩,
      ofBucket_keyed empty led⟩

end Mapped

/-! ## Rows that all have ids -/

theorem hierarchyId_ofBucket {id : String} {held : List HierarchyRow} {g : RowGroup}
    (made : ofBucket w (.id id) held = some (.ok g)) : g.hierarchyId = id := by
  unfold ofBucket at made
  split at made
  · cases made
  · dsimp only at made
    split_ifs at made
    · cases Option.some.inj made
    · obtain rfl := Except.ok.inj (Option.some.inj made)
      rfl

section Ids

variable (ids : ∀ row ∈ rows, row.hierarchyId.isSome = true)

include ids

theorem keyed_of_ids (w : Window) (id : String) :
    keyed w rows (.id id) = rows.filter (·.hierarchyId = some id) := by
  have all : arranged rows = rows := by
    have none : rows.filter (·.hierarchyId.isNone) = [] := by
      rw [List.filter_eq_nil_iff]
      intro row hrow
      simp [Option.isSome_iff_ne_none.mp (ids row hrow)]
    rw [arranged, none, List.append_nil, List.filter_eq_self.mpr ids]
  rw [keyed, all]
  refine List.filter_congr fun row hrow => ?_
  obtain ⟨k, hid⟩ := Option.isSome_iff_exists.mp (ids row hrow)
  rw [key?_of_id hid, hid]
  simp

/-- The rows of an id, if they stand in the order of leadership, are the one group of the id. -/
theorem exists_group_of_ids {id : String} (filled : id ≠ "") {leader : HierarchyRow}
    {others : List HierarchyRow}
    (block : rows.filter (·.hierarchyId = some id) = leader :: others)
    (led : (leader :: others).Pairwise fun a b => a.leads b = true) :
    ∃ g : RowGroup, g.rows = leader :: others ∧ g.hierarchyId = id ∧
      ∀ g', g' ∈ (group w rows).1 ∧ g'.hierarchyId = id ↔ g' = g := by
  have held : keyed w rows (.id id) = leader :: others := (keyed_of_ids ids w id).trans block
  have order : leadershipOrder (leader :: others) = leader :: others := stableSort_of_sorted led
  obtain ⟨g, made⟩ : ∃ g, ofBucket w (.id id) (leader :: others) = some (.ok g) :=
    exists_ofBucket (List.cons_ne_nil _ _) (fun k same => Key.id.inj same ▸ filled) (by simp)
  refine ⟨g, (ofBucket_eq_ok made).1.trans order, hierarchyId_ofBucket made, fun g' => ?_⟩
  rw [(perm_group w rows).mem_iff, List.mem_filterMap]
  constructor
  · rintro ⟨⟨⟨key, bucket⟩, hb, made'⟩, same⟩
    rw [bind_toOption_eq_some] at made'
    obtain ⟨⟨row, hrow, hkey⟩, rfl⟩ := mem_buckets_iff.mp hb
    obtain ⟨k, hid⟩ := Option.isSome_iff_exists.mp (ids row hrow)
    obtain rfl : key = .id k := Option.some.inj (hkey.symm.trans (key?_of_id hid))
    obtain rfl : k = id := (hierarchyId_ofBucket made').symm.trans same
    dsimp only at made'
    rw [held, made] at made'
    exact (Except.ok.inj (Option.some.inj made')).symm
  · rintro rfl
    have mem : leader ∈ rows ∧ leader.hierarchyId = some id := by
      have mem : leader ∈ rows.filter (·.hierarchyId = some id) := block ▸ List.mem_cons_self
      simpa using mem
    refine ⟨⟨(.id id, keyed w rows (.id id)), ?_, ?_⟩, hierarchyId_ofBucket made⟩
    · exact mem_buckets_iff.mpr ⟨⟨leader, mem.1, key?_of_id mem.2⟩, rfl⟩
    · rw [bind_toOption_eq_some, held]
      exact made

end Ids

/-! ## The grouping -/

/-- Two rows are in one group. -/
def Together (groups : List RowGroup) (a b : HierarchyRow) : Prop :=
  ∃ g ∈ groups, a ∈ g.rows ∧ b ∈ g.rows

/-- How standard rows are grouped. -/
structure IsGrouping (w : Window) (rows : List HierarchyRow) (groups : List RowGroup)
    (errors : List String) : Prop where
  /-- Rows with ids are in one group if they have the same id. -/
  byId : ∀ a ∈ rows, ∀ b ∈ rows, ∀ i j, a.hierarchyId = some i → b.hierarchyId = some j →
    (Together groups a b ↔ i = j)
  /-- A row without an id is in the group of the first row that has an id and its name. -/
  byName : ∀ a ∈ rows, ∀ name, a.hierarchyId = none → rowName w a = some name →
    ∀ first, firstNamed? w rows name = some first → Together groups a first
  /-- If there is none, it is in a group with the other rows of its name that have no id. -/
  ofName : ∀ a ∈ rows, ∀ name, a.hierarchyId = none → rowName w a = some name →
    firstNamed? w rows name = none → Text.slug name ≠ "" →
    ∃ g ∈ groups, ∀ r, r ∈ g.rows ↔ r ∈ rows ∧ r.hierarchyId = none ∧ rowName w r = some name
  /-- If the name has no slug either, these rows are in no group, and one of them is reported. -/
  reported : ∀ a ∈ rows, ∀ name, a.hierarchyId = none → rowName w a = some name →
    firstNamed? w rows name = none → Text.slug name = "" →
    (∀ g ∈ groups, a ∉ g.rows) ∧ ∃ r ∈ rows, r.hierarchyId = none ∧ rowName w r = some name ∧
      underivable r.number name ∈ errors
  /-- Groups hold rows of the file. -/
  known : ∀ g ∈ groups, ∀ r ∈ g.rows, r ∈ rows
  /-- Within a group, keys come first in ascending order, then the rows without one. -/
  leadership : ∀ g ∈ groups, g.rows.Pairwise HierarchyRow.Before
  /-- The groups come by their smallest numbers. -/
  order : groups.Pairwise fun g h => ∃ r ∈ g.rows, ∀ r' ∈ h.rows, r.number < r'.number
  /-- No row occurs twice. -/
  once : ((groups.flatMap RowGroup.rows).map (·.number)).Nodup

/-- Rows of one group have one key, and a row of a group is together with all rows of its key. -/
theorem together_iff {a b : HierarchyRow} (hb : b ∈ rows)
    (grouped : ∃ g ∈ (group w rows).1, a ∈ g.rows) :
    Together (group w rows).1 a b ↔ key? w rows b = key? w rows a := by
  have keyed := keyedBy_group w rows
  constructor
  · rintro ⟨g, hg, mem, mem'⟩
    exact ((keyed.mem_iff hg mem).mp mem').2
  · intro same
    obtain ⟨g, hg, mem⟩ := grouped
    exact ⟨g, hg, mem, (keyed.mem_iff hg mem).mpr ⟨hb, same⟩⟩

/-- Rows of a file in the order of their numbers are grouped as the format says. -/
theorem isGrouping_group (w : Window) (rows : List HierarchyRow)
    (mapped : ∀ row ∈ rows, row.ReadIn .standard)
    (numbered : rows.Pairwise fun a b => a.number < b.number) :
    IsGrouping w rows (group w rows).1 (group w rows).2 := by
  have keyed := keyedBy_group w rows
  have distinct : (rows.map (·.number)).Nodup :=
    List.pairwise_map.mpr (numbered.imp fun less => Nat.ne_of_lt less)
  have grouped_id : ∀ a ∈ rows, ∀ k, key? w rows a = some (.id k) →
      ∃ g ∈ (group w rows).1, a ∈ g.rows := by
    intro a ha k hk
    exact (exists_group_iff mapped ha).mpr ⟨_, hk, by simp⟩
  refine ⟨?_, ?_, ?_, ?_, fun g hg r hr => keyed.mem_rows hg hr,
    fun g hg => keyed.pairwise_before distinct hg, keyed.pairwise_first distinct ?_,
    keyed.nodup_numbers distinct⟩
  · intro a ha b hb i j hi hj
    rw [together_iff hb (grouped_id a ha i (key?_of_id hi)), key?_of_id hi, key?_of_id hj]
    simp [eq_comm]
  · intro a ha name idLess named first found
    obtain ⟨inFile, k, hk, -⟩ := of_firstNamed? found
    have same := key?_of_first idLess named found
    exact (together_iff inFile (grouped_id a ha k (same.trans (key?_of_id hk)))).mpr same.symm
  · intro a ha name idLess named none filled
    have hkey : key? w rows a = some (.name name) := key?_eq_name_iff.mpr ⟨idLess, named, none⟩
    obtain ⟨g, hg, mem⟩ := (exists_group_iff mapped ha).mpr ⟨_, hkey, by
      rintro n same
      cases same
      exact filled⟩
    refine ⟨g, hg, fun r => ?_⟩
    rw [keyed.mem_iff hg mem, hkey, key?_eq_name_iff, and_iff_left none]
  · intro a ha name idLess named none empty
    have hkey : key? w rows a = some (.name name) := key?_eq_name_iff.mpr ⟨idLess, named, none⟩
    refine ⟨fun g hg mem => ?_, ?_⟩
    · obtain ⟨key, hkey', slugs⟩ := (exists_group_iff mapped ha).mp ⟨g, hg, mem⟩
      exact slugs name (Option.some.inj (hkey'.symm.trans hkey)) empty
    · obtain ⟨leader, led⟩ := exists_leader? ha hkey
      obtain ⟨inFile, hkey'⟩ := mem_keyed.mp (mem_of_leader? led)
      obtain ⟨idLess', named', -⟩ := key?_eq_name_iff.mp hkey'
      exact ⟨leader, inFile, idLess', named',
        (mem_errors_iff mapped).mpr (Or.inr ⟨name, leader, empty, led, rfl⟩)⟩
  · refine (pairwise_stableSort ?_ ?_ _).imp fun h => by simpa using h
    · intro a b c hab hbc
      simp only [decide_eq_true_eq] at *
      omega
    · intro a b
      simp only [decide_eq_true_eq]
      omega

/-! ## An example -/

/-- A table with rows that have a name in common, two of them with ids, and with names that no row
    with an id has. -/
def namesakes : Table :=
  { headers := ["HIERARCHY_ID", "HIERARCHY_NAME", "XREF_KEY", "LEVEL_1"]
    columns := ["HIERARCHY_ID", "HIERARCHY_NAME", "XREF_KEY", "LEVEL_1"]
    rows := [⟨1, ["", "Net", "", ""]⟩, ⟨2, ["N2", "Net", "", ""]⟩, ⟨3, ["N1", "Net", "", ""]⟩,
      ⟨4, ["", "", "", "Gross"]⟩, ⟨5, ["", "Gross", "7", ""]⟩, ⟨6, ["", "***", "", ""]⟩]
    problems := [] }

theorem isGrouping_group_namesakes :
    (group .standard (Import.readRows namesakes .standard)).1.map (fun g =>
      (g.hierarchyId, g.rows.map (·.number))) = [("N2", [1, 2]), ("N1", [3]), ("GROSS", [5, 4])] ∧
    IsGrouping .standard (Import.readRows namesakes .standard)
      (group .standard (Import.readRows namesakes .standard)).1
      (group .standard (Import.readRows namesakes .standard)).2 := by
  refine ⟨by decide +kernel, isGrouping_group _ _ (fun row mem => ?_) ?_⟩
  · obtain ⟨record, -, read⟩ := Import.read_of_mem_readRows mem
    exact ⟨_, _, _, read⟩
  · have numbers : (Import.readRows namesakes .standard).map (·.number) = [1, 2, 3, 4, 5, 6] := by
      decide +kernel
    rw [← List.pairwise_map (R := (· < ·)), numbers]
    decide

end Rollup.RowGroup.Standard

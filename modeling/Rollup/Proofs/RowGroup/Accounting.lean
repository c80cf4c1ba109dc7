import Mathlib.Data.List.Basic
import Mathlib.Logic.Basic
import Mathlib.Tactic.SplitIfs
import Rollup.Proofs.Literal
import Rollup.Proofs.RowGroup.Legacy
import Rollup.Proofs.RowGroup.Together
import Rollup.RowGroup.Grouping

/-!
# What becomes of the rows of a file

A row is either in one group, or an error names it by its number. There is one exception: of the
standard rows that share a name without a slug, and are grouped by that name, only the first one is
named.

Results:

* `rowLabel_inj`: messages about different rows are different.
* `Standard.namedIn_iff`, `Legacy.namedIn_iff`: the rows that are named.
* `accounted_group`: what becomes of every row, in either dialect.
* `unaccounted_twoStars`: a row that is in no group and not named.
-/

namespace Rollup

/-! ## Messages about rows -/

/-- The number of a row can be read off a message about it. -/
theorem rowLabel_inj {m n : Nat} {x y : String} (same : rowLabel m ++ x = rowLabel n ++ y) :
    m = n := by
  have digits : ∀ k : Nat, (toString k).toList = Nat.toDigits 10 k := by
    intro k
    change k.repr.toList = _
    rw [Nat.repr_eq_ofList_toDigits, String.toList_ofList]
  have number : ∀ (k : Nat) (z : List Char),
      (Nat.toDigits 10 k ++ (": ".toList ++ z)).takeWhile Char.isDigit = Nat.toDigits 10 k := by
    intro k z
    rw [List.takeWhile_append_of_pos (Literal.isDigit_toDigits k)]
    exact List.append_nil _
  have lists := congrArg String.toList same
  simp only [rowLabel, String.toList_append, List.append_assoc, List.append_cancel_left_eq,
    digits] at lists
  have leading := congrArg (List.takeWhile Char.isDigit) lists
  rw [number, number] at leading
  have read := congrArg Decimal.readDigits? leading
  rw [Literal.readDigits?_toDigits, Literal.readDigits?_toDigits] at read
  exact Option.some.inj read

/-- One of the messages is about the row. -/
def HierarchyRow.NamedIn (errors : List String) (row : HierarchyRow) : Prop :=
  ∃ text, rowLabel row.number ++ text ∈ errors

/-- The row is in exactly one of the groups. -/
def HierarchyRow.InOne (groups : List RowGroup) (row : HierarchyRow) : Prop :=
  ∃! i : Nat, ∃ g, groups[i]? = some g ∧ row ∈ g.rows

section Keyed

variable {κ : Type} [DecidableEq κ] {key : HierarchyRow → Option κ} {rows : List HierarchyRow}
  {groups : List RowGroup} {row : HierarchyRow}

/-- In keyed groups a row is in one if it is in any. -/
theorem KeyedBy.inOne_iff (keyed : KeyedBy key rows groups) :
    row.InOne groups ↔ ∃ g ∈ groups, row ∈ g.rows := by
  constructor
  · rintro ⟨i, ⟨g, here, mem⟩, -⟩
    exact ⟨g, List.mem_of_getElem? here, mem⟩
  · rintro ⟨g, hg, mem⟩
    exact keyed.existsUnique hg mem

end Keyed

/-- A message about a row of the file is about no other one. -/
theorem eq_of_rowLabel {rows : List HierarchyRow} (distinct : (rows.map (·.number)).Nodup)
    {a b : HierarchyRow} (ha : a ∈ rows) (hb : b ∈ rows) {x y : String}
    (same : rowLabel a.number ++ x = rowLabel b.number ++ y) : a = b :=
  List.inj_on_of_nodup_map distinct ha hb (rowLabel_inj same)

namespace RowGroup

/-! ## Standard rows -/

namespace Standard

variable {w : Window} {rows : List HierarchyRow} {row : HierarchyRow}

/-- A row without an id that is grouped by its name, which has no slug. -/
def Unidentified (w : Window) (rows : List HierarchyRow) (name : String) (row : HierarchyRow) :
    Prop :=
  row.hierarchyId = none ∧ rowName w row = some name ∧ firstNamed? w rows name = none ∧
    Text.slug name = ""

theorem unidentified_iff {name : String} :
    Unidentified w rows name row ↔ key? w rows row = some (.name name) ∧ Text.slug name = "" := by
  rw [Unidentified, key?_eq_name_iff]
  tauto

/-- The row is unidentified and comes behind another such row of its name. -/
def Overlooked (w : Window) (rows : List HierarchyRow) (row : HierarchyRow) : Prop :=
  ∃ name, Unidentified w rows name row ∧
    ∃ other ∈ rows, Unidentified w rows name other ∧ other.Before row

/-- The leader of the rows with a key is before all others. -/
theorem before_of_leader? (distinct : (rows.map (·.number)).Nodup) {key : Key}
    {leader : HierarchyRow} (led : leader? w rows key = some leader) (mem : row ∈ rows)
    (hkey : key? w rows row = some key) (ne : leader ≠ row) : leader.Before row := by
  have inFile := (mem_keyed.mp (mem_of_leader? led)).1
  obtain ⟨others, order⟩ := List.head?_eq_some_iff.mp led
  have held : row ∈ leader :: others :=
    order ▸ (perm_leadershipOrder _).mem_iff.mpr (mem_keyed.mpr ⟨mem, hkey⟩)
  have leads := List.rel_of_pairwise_cons (order ▸ pairwise_leadershipOrder (keyed w rows key))
    ((List.mem_cons.mp held).resolve_left (Ne.symm ne))
  exact HierarchyRow.before_of_leads leads fun same =>
    ne (List.inj_on_of_nodup_map distinct inFile mem same)

/-- Of the rows that are grouped by a name without a slug, all but the leader are overlooked. -/
theorem overlooked_iff (distinct : (rows.map (·.number)).Nodup) (mem : row ∈ rows) :
    Overlooked w rows row ↔ ∃ name, key? w rows row = some (.name name) ∧ Text.slug name = "" ∧
      leader? w rows (.name name) ≠ some row := by
  constructor
  · rintro ⟨name, unidentified, other, inFile, behind, before⟩
    obtain ⟨hkey, empty⟩ := unidentified_iff.mp unidentified
    refine ⟨name, hkey, empty, fun led => before.asymm ?_⟩
    refine before_of_leader? distinct led inFile (unidentified_iff.mp behind).1 ?_
    rintro rfl
    exact before.asymm before
  · rintro ⟨name, hkey, empty, notLed⟩
    obtain ⟨leader, led⟩ := exists_leader? mem hkey
    obtain ⟨inFile, hkey'⟩ := mem_keyed.mp (mem_of_leader? led)
    refine ⟨name, unidentified_iff.mpr ⟨hkey, empty⟩, leader, inFile,
      unidentified_iff.mpr ⟨hkey', empty⟩, before_of_leader? distinct led mem hkey ?_⟩
    rintro rfl
    exact notLed led

variable (mapped : ∀ row ∈ rows, row.ReadIn .standard) (distinct : (rows.map (·.number)).Nodup)

include mapped

theorem underivable_mem {name : String} (empty : Text.slug name = "") {leader : HierarchyRow}
    (led : leader? w rows (.name name) = some leader) :
    underivable leader.number name ∈ (group w rows).2 :=
  (mem_errors_iff mapped).mpr (Or.inr ⟨name, leader, empty, led, rfl⟩)

include distinct

/-- The rows that are named: those without a key, and the leaders of the rows that are grouped by a
    name without a slug. -/
theorem namedIn_iff (mem : row ∈ rows) : row.NamedIn (group w rows).2 ↔
    key? w rows row = none ∨
      ∃ name, Text.slug name = "" ∧ leader? w rows (.name name) = some row := by
  constructor
  · rintro ⟨text, reported⟩
    rcases (mem_errors_iff mapped).mp reported with ⟨r, hr, keyless, same⟩ | ⟨n, r, empty, led, same⟩
    · rw [eq_of_rowLabel distinct mem hr same]
      exact Or.inl keyless
    · have inFile := (mem_keyed.mp (mem_of_leader? led)).1
      simp only [underivable, String.append_assoc] at same
      rw [eq_of_rowLabel distinct mem inFile same]
      exact Or.inr ⟨n, empty, led⟩
  · rintro (keyless | ⟨n, empty, led⟩)
    · exact ⟨_, (mem_errors_iff mapped).mpr (Or.inl ⟨row, mem, keyless, rfl⟩)⟩
    · refine ⟨"cannot derive a HIERARCHY_ID from name '" ++ n ++ "'", ?_⟩
      simpa only [underivable, String.append_assoc] using underivable_mem mapped empty led

/-- A row that is named is in no group. -/
theorem not_grouped_of_namedIn (mem : row ∈ rows) (named : row.NamedIn (group w rows).2) :
    ¬ ∃ g ∈ (group w rows).1, row ∈ g.rows := by
  rw [exists_group_iff mapped mem]
  rintro ⟨key, hkey, slugs⟩
  rcases (namedIn_iff mapped distinct mem).mp named with keyless | ⟨n, empty, led⟩
  · rw [keyless] at hkey
    cases hkey
  · have own := (mem_keyed.mp (mem_of_leader? led)).2
    exact slugs n (Option.some.inj (hkey.symm.trans own)) empty

/-- The rows that are neither in a group nor named are the overlooked ones. -/
theorem grouped_or_namedIn_iff (mem : row ∈ rows) :
    (∃ g ∈ (group w rows).1, row ∈ g.rows) ∨ row.NamedIn (group w rows).2 ↔
      ¬ Overlooked w rows row := by
  rw [exists_group_iff mapped mem, namedIn_iff mapped distinct mem, overlooked_iff distinct mem]
  cases hkey : key? w rows row with
  | none => simp
  | some key =>
    cases key with
    | id k => simp
    | name n =>
      by_cases empty : Text.slug n = ""
      · have led_iff : (∃ n', Text.slug n' = "" ∧ leader? w rows (.name n') = some row) ↔
            leader? w rows (.name n) = some row := by
          refine ⟨?_, fun led => ⟨n, empty, led⟩⟩
          rintro ⟨n', -, led⟩
          have own := (mem_keyed.mp (mem_of_leader? led)).2
          cases hkey.symm.trans own
          exact led
        simp [empty, led_iff]
      · simp [empty]

end Standard

/-! ## Legacy rows -/

namespace Legacy

variable {w : Window} {rows : List HierarchyRow} {row : HierarchyRow}

/-- What a row is grouped by, if by anything. -/
def key? (w : Window) (row : HierarchyRow) : Option (List String) :=
  if rowPath w row = [] then none else some (rowPath w row)

theorem keyedRows_eq (w : Window) (rows : List HierarchyRow) :
    keyedRows w rows = withKey (key? w) rows := by
  rw [keyedRows, withKey, ← List.filterMap_eq_filter, List.filterMap_map]
  refine List.filterMap_congr fun r _ => ?_
  by_cases bare : rowPath w r = [] <;> simp [key?, Option.guard, bare]

/-- The groups hold the rows with one path. -/
theorem keyedBy_group (w : Window) (rows : List HierarchyRow) :
    KeyedBy (key? w) rows (group w rows).1 := by
  rw [group_fst, keyedRows_eq]
  exact keyedBy_buckets (List.Perm.refl rows) fun _ _ hg => (ofBucket_eq_some hg).2.2.1

/-- The rows that are in a group: they have a path. -/
theorem exists_group_iff (mem : row ∈ rows) :
    (∃ g ∈ (group w rows).1, row ∈ g.rows) ↔ rowPath w row ≠ [] := by
  constructor
  · rintro ⟨g, hg, hrow⟩
    obtain ⟨ne, members, -⟩ := mem_group hg
    rw [(members row hrow).2]
    exact ne
  · intro ne
    obtain ⟨⟨path, held⟩, hb, rfl, hrow⟩ :=
      exists_bucket (mem_keyedRows.mpr ⟨mem, rfl, ne⟩ : (rowPath w row, row) ∈ keyedRows w rows)
    have made : (ofBucket w (rowPath w row) held).isSome = true :=
      ofBucket_isSome (List.ne_nil_of_mem hrow)
    obtain ⟨g, hg⟩ := Option.isSome_iff_exists.mp made
    refine ⟨g, ?_, ?_⟩
    · rw [group_fst]
      exact List.mem_filterMap.mpr ⟨_, hb, hg⟩
    · rw [(ofBucket_eq_some hg).2.2.1]
      exact (perm_leadershipOrder _).mem_iff.mpr hrow

/-- The rows that are named: they have no path. -/
theorem namedIn_iff (distinct : (rows.map (·.number)).Nodup) (mem : row ∈ rows) :
    row.NamedIn (group w rows).2 ↔ rowPath w row = [] := by
  have errors : ∀ e, e ∈ (group w rows).2 ↔ ∃ r ∈ rows, rowPath w r = [] ∧
      rowLabel r.number ++ "no LEVEL value or HIERARCHY_NAME" = e := by
    intro e
    simp [group]
  constructor
  · rintro ⟨text, reported⟩
    obtain ⟨r, hr, bare, same⟩ := (errors _).mp reported
    rwa [eq_of_rowLabel distinct mem hr same.symm]
  · intro bare
    exact ⟨_, (errors _).mpr ⟨row, mem, bare, rfl⟩⟩

end Legacy

end RowGroup

/-! ## Both dialects -/

namespace Dialect

/-- Rows are overlooked in standard files only. -/
def Overlooks (d : Dialect) (w : Window) (rows : List HierarchyRow) (row : HierarchyRow) : Prop :=
  d = .standard ∧ RowGroup.Standard.Overlooked w rows row

/-- What becomes of a row of a file. -/
structure Accounted (d : Dialect) (w : Window) (rows : List HierarchyRow) (row : HierarchyRow) :
    Prop where
  /-- It is in one group, or an error names it. -/
  attended : ¬ d.Overlooks w rows row →
    Xor (row.InOne (d.group w rows).1) (row.NamedIn (d.group w rows).2)
  /-- If it is overlooked, it is in no group, and an error names another row of its name. -/
  overlooked : d.Overlooks w rows row →
    (∀ g ∈ (d.group w rows).1, row ∉ g.rows) ∧ ¬ row.NamedIn (d.group w rows).2 ∧
      ∃ name, RowGroup.Standard.Unidentified w rows name row ∧
        ∃ leader ∈ rows, RowGroup.Standard.Unidentified w rows name leader ∧
          RowGroup.Standard.underivable leader.number name ∈ (d.group w rows).2

/-- No row of a file is lost, but for the overlooked ones. -/
theorem accounted_group (d : Dialect) (w : Window) (rows : List HierarchyRow)
    (mapped : ∀ row ∈ rows, row.ReadIn d) (distinct : (rows.map (·.number)).Nodup) :
    ∀ row ∈ rows, d.Accounted w rows row := by
  intro row mem
  cases d with
  | legacy =>
    have inOne : row.InOne (group legacy w rows).1 ↔ RowGroup.Legacy.rowPath w row ≠ [] :=
      (RowGroup.Legacy.keyedBy_group w rows).inOne_iff.trans (RowGroup.Legacy.exists_group_iff mem)
    have named : row.NamedIn (group legacy w rows).2 ↔ RowGroup.Legacy.rowPath w row = [] :=
      RowGroup.Legacy.namedIn_iff distinct mem
    refine ⟨fun _ => ?_, fun overlooked => nomatch overlooked.1⟩
    rw [inOne, named, xor_def]
    tauto
  | standard =>
    have inOne : row.InOne (group standard w rows).1 ↔
        ∃ g ∈ (group standard w rows).1, row ∈ g.rows :=
      (RowGroup.Standard.keyedBy_group w rows).inOne_iff
    have either := RowGroup.Standard.grouped_or_namedIn_iff (w := w) mapped distinct mem
    refine ⟨fun attended => ?_, fun overlooked => ?_⟩
    · have notBoth := RowGroup.Standard.not_grouped_of_namedIn (w := w) mapped distinct mem
      rw [inOne, xor_def]
      rcases either.mpr fun behind => attended ⟨rfl, behind⟩ with grouped | named
      · exact Or.inl ⟨grouped, fun named => notBoth named grouped⟩
      · exact Or.inr ⟨named, notBoth named⟩
    · obtain ⟨-, behind⟩ := overlooked
      have neither := not_or.mp fun grouped => either.mp grouped behind
      refine ⟨fun g hg held => neither.1 ⟨g, hg, held⟩, neither.2, ?_⟩
      obtain ⟨name, unidentified, -⟩ := behind
      obtain ⟨hkey, empty⟩ := RowGroup.Standard.unidentified_iff.mp unidentified
      obtain ⟨leader, led⟩ := RowGroup.Standard.exists_leader? mem hkey
      obtain ⟨inFile, hkey'⟩ :=
        RowGroup.Standard.mem_keyed.mp (RowGroup.Standard.mem_of_leader? led)
      exact ⟨name, unidentified, leader, inFile,
        RowGroup.Standard.unidentified_iff.mpr ⟨hkey', empty⟩,
        RowGroup.Standard.underivable_mem mapped empty led⟩

/-! ## An example -/

/-- A table with two rows of a name without a slug. -/
def twoStars : Table :=
  { headers := ["HIERARCHY_NAME"]
    columns := ["HIERARCHY_NAME"]
    rows := [⟨1, ["***"]⟩, ⟨2, ["***"]⟩, ⟨3, ["Net"]⟩]
    problems := [] }

theorem numbers_twoStars :
    (Import.readRows twoStars .standard).map (·.number) = [1, 2, 3] := by
  decide +kernel

theorem readIn_twoStars : ∀ row ∈ Import.readRows twoStars .standard, row.ReadIn .standard := by
  intro row mem
  obtain ⟨record, -, read⟩ := Import.read_of_mem_readRows mem
  exact ⟨_, _, _, read⟩

theorem accounted_group_twoStars :
    (standard.group .standard (Import.readRows twoStars .standard)).2 =
      ["row 1: cannot derive a HIERARCHY_ID from name '***'"] ∧
    ∀ row ∈ Import.readRows twoStars .standard,
      standard.Accounted .standard (Import.readRows twoStars .standard) row :=
  ⟨by decide +kernel,
    accounted_group .standard .standard _ readIn_twoStars (by rw [numbers_twoStars]; decide)⟩

/-- A row of a file can be in no group and not be named. -/
theorem unaccounted_twoStars :
    ¬ ∀ (d : Dialect) (w : Window) (rows : List HierarchyRow), (∀ row ∈ rows, row.ReadIn d) →
      (rows.map (·.number)).Nodup → ∀ row ∈ rows,
        Xor (row.InOne (d.group w rows).1) (row.NamedIn (d.group w rows).2) := by
  intro claimed
  have second : ∃ row ∈ Import.readRows twoStars .standard, row.number = 2 := by
    decide +kernel
  obtain ⟨row, mem, number⟩ := second
  have grouped : ((standard.group .standard (Import.readRows twoStars .standard)).1.map fun g =>
      g.rows.map (·.number)) = [[3]] := by
    decide +kernel
  have errors : (standard.group .standard (Import.readRows twoStars .standard)).2 =
      [rowLabel 1 ++ "cannot derive a HIERARCHY_ID from name '***'"] := by
    decide +kernel
  rcases claimed .standard .standard _ readIn_twoStars (by rw [numbers_twoStars]; decide) row mem
    with ⟨⟨i, ⟨g, here, held⟩, -⟩, -⟩ | ⟨⟨text, reported⟩, -⟩
  · have listed : g.rows.map (·.number) ∈ [[3]] :=
      grouped ▸ List.mem_map_of_mem (List.mem_of_getElem? here)
    have own := List.mem_map_of_mem (f := fun r : HierarchyRow => r.number) held
    rw [List.mem_singleton.mp listed, List.mem_singleton, number] at own
    cases own
  · rw [errors, List.mem_singleton, number] at reported
    cases rowLabel_inj reported

end Dialect

end Rollup

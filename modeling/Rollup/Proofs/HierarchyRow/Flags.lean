import Mathlib.Data.List.Basic
import Mathlib.Data.List.Nodup
import Mathlib.Tactic.SplitIfs
import Rollup.Proofs.Dict
import Rollup.Proofs.HierarchyRow

/-!
# The custom flags of a table

Which columns are custom flags is decided by all columns of a table, also by those that repeat the
name of an earlier one. The cells are read from the first column of a name only. So a name is taken
for a flag as soon as one of its columns holds truth values, and its cells are read as flags even if
that is another column. No truth value gets lost that stands in a column whose cells are read.

Results:

* `mem_customFlagColumns_iff`, `nodup_customFlagColumns`: the names that are taken for flags.
* `flagColumns_standard`: these names, and what is read for them.
* `not_readsFlags_of_customFlagColumn`: a name that is taken for a flag although no truth value is
  read for it.
-/

namespace Rollup.Table

/-! ## Names of flags -/

/-- The cells that are read for a column hold at least one value, and only truth values. -/
def ReadsFlags (t : Table) (c : String) : Prop :=
  (∃ row ∈ t.rows, (t.cell? row c).isSome = true) ∧
    ∀ row ∈ t.rows, ∀ v ∈ t.cell? row c, (Literal.bool? v).isSome = true

/-- A later column of the name, from which nothing is read, holds at least one value, and only
    truth values. -/
def HasLaterFlags (t : Table) (c : String) : Prop :=
  ∃ i, t.columns[i]? = some c ∧ t.index? c ≠ some i ∧ t.isFlagColumn i = true

/-- Names that are collected one by one. -/
theorem mem_foldl_collect {keep : String × Nat → Bool} {c : String}
    (columns : List (String × Nat)) :
    ∀ found : List String,
      c ∈ columns.foldl (fun found p =>
          if !found.contains p.1 && keep p then found ++ [p.1] else found) found ↔
        c ∈ found ∨ ∃ p ∈ columns, p.1 = c ∧ keep p = true := by
  induction columns with
  | nil => intro found; simp
  | cons p columns ih =>
    intro found
    have step : c ∈ (if !found.contains p.1 && keep p then found ++ [p.1] else found) ↔
        c ∈ found ∨ p.1 = c ∧ keep p = true := by
      split_ifs with new
      · rw [List.mem_append, List.mem_singleton, eq_comm, ((Bool.and_eq_true _ _).mp new).2,
          and_iff_left rfl]
      · have known : p.1 = c → keep p = true → c ∈ found := by
          rintro rfl kept
          rwa [kept, Bool.and_true, Bool.not_eq_true', Bool.not_eq_false,
            List.contains_iff_mem] at new
        tauto
    rw [List.foldl_cons, ih, step, or_assoc, List.exists_mem_cons_iff]

theorem nodup_foldl_collect {keep : String × Nat → Bool} (columns : List (String × Nat)) :
    ∀ found : List String, found.Nodup →
      (columns.foldl (fun found p =>
        if !found.contains p.1 && keep p then found ++ [p.1] else found) found).Nodup := by
  intro found nodup
  refine List.foldlRecOn (motive := List.Nodup) columns _ nodup fun found nodup p _ => ?_
  split_ifs with fresh
  · have absent : p.1 ∉ found := by
      intro mem
      simp [mem] at fresh
    exact List.nodup_append'.mpr ⟨nodup, List.nodup_singleton _,
      List.disjoint_singleton.mpr absent⟩
  · exact nodup

section Columns

variable {t : Table} {c : String}

/-- Each name is listed once. -/
theorem nodup_customFlagColumns (t : Table) (d : Dialect) : (t.customFlagColumns d).Nodup :=
  nodup_foldl_collect _ [] List.nodup_nil

/-- A name is listed if some column of it counts as a flag. -/
theorem mem_customFlagColumns {d : Dialect} : c ∈ t.customFlagColumns d ↔
    ∃ i, t.columns[i]? = some c ∧ t.isCustomFlag d c i = true := by
  rw [customFlagColumns, mem_foldl_collect]
  constructor
  · rintro (none | ⟨⟨_, i⟩, mem, rfl, flag⟩)
    · cases none
    · exact ⟨i, List.mem_zipIdx_iff_getElem?.mp mem, flag⟩
  · rintro ⟨i, here, flag⟩
    exact Or.inr ⟨(c, i), List.mem_zipIdx_iff_getElem?.mpr here, rfl, flag⟩

theorem getElem?_of_index? {i : Nat} (first : t.index? c = some i) : t.columns[i]? = some c := by
  obtain ⟨bound, same, -⟩ := List.findIdx?_eq_some_iff_getElem.mp first
  rw [List.getElem?_eq_getElem bound, beq_iff_eq.mp same]

/-- The first column of a name counts as a flag if the cells that are read for it do. -/
theorem readsFlags_iff {i : Nat} (first : t.index? c = some i) :
    t.ReadsFlags c ↔ t.isFlagColumn i = true := by
  have cells : ∀ row, t.cell? row c = (row.cells[i]?).bind nonBlank? := by
    intro row
    rw [cell?, first, Option.bind_some]
  have values : ∀ v, v ∈ t.columnValues i ↔ ∃ row ∈ t.rows, t.cell? row c = some v := by
    intro v
    simp only [columnValues, List.mem_filterMap, cells]
  have some : t.columnValues i ≠ [] ↔ ∃ row ∈ t.rows, (t.cell? row c).isSome = true := by
    constructor
    · intro ne
      obtain ⟨v, hv⟩ := List.exists_mem_of_ne_nil _ ne
      obtain ⟨row, hrow, eq⟩ := (values v).mp hv
      exact ⟨row, hrow, by rw [eq]; rfl⟩
    · rintro ⟨row, hrow, filled⟩
      obtain ⟨v, hv⟩ := Option.isSome_iff_exists.mp filled
      exact List.ne_nil_of_mem ((values v).mpr ⟨row, hrow, hv⟩)
  rw [isFlagColumn, Bool.and_eq_true, Bool.not_eq_true', List.isEmpty_eq_false_iff, some,
    List.all_eq_true, ReadsFlags]
  refine and_congr_right fun _ => ⟨fun all v hv => ?_, fun all row hrow v hv => ?_⟩
  · obtain ⟨row, hrow, eq⟩ := (values v).mp hv
    exact all row hrow v eq
  · exact all v ((values v).mpr ⟨row, hrow, hv⟩)

/-- The names that are taken for flags in a standard file: those of no layout whose cells are truth
    values, and those that a later column with truth values repeats. -/
theorem mem_customFlagColumns_iff : c ∈ t.customFlagColumns .standard ↔
    c ≠ "" ∧ c ∉ Column.known ∧ (t.ReadsFlags c ∨ t.HasLaterFlags c) := by
  have counts : ∀ i, t.isCustomFlag .standard c i = true ↔
      c ≠ "" ∧ c ∉ Column.known ∧ t.isFlagColumn i = true := by
    intro i
    simp [isCustomFlag]
  simp only [mem_customFlagColumns, counts]
  constructor
  · rintro ⟨i, here, ne, free, flag⟩
    refine ⟨ne, free, ?_⟩
    by_cases first : t.index? c = some i
    · exact Or.inl ((readsFlags_iff first).mpr flag)
    · exact Or.inr ⟨i, here, first, flag⟩
  · rintro ⟨ne, free, reads | ⟨i, here, -, flag⟩⟩
    · obtain ⟨row, -, filled⟩ := reads.1
      obtain ⟨v, hv⟩ := Option.isSome_iff_exists.mp filled
      obtain ⟨i, first, -⟩ := Option.bind_eq_some_iff.mp hv
      exact ⟨i, getElem?_of_index? first, ne, free, (readsFlags_iff first).mp reads⟩
    · exact ⟨i, here, ne, free, flag⟩

/-- Without repeated names a column is where its name stands. -/
theorem index?_of_getElem? (nodup : t.columns.Nodup) {i : Nat} (here : t.columns[i]? = some c) :
    t.index? c = some i := by
  obtain ⟨bound, same⟩ := List.getElem?_eq_some_iff.mp here
  refine List.findIdx?_eq_some_iff_getElem.mpr ⟨bound, beq_iff_eq.mpr same, ?_⟩
  intro j before equal
  have place := nodup.getElem_inj_iff.mp ((beq_iff_eq.mp equal).trans same.symm)
  omega

/-- Without repeated names there are no later columns. -/
theorem not_hasLaterFlags (nodup : t.columns.Nodup) : ¬ t.HasLaterFlags c := by
  rintro ⟨i, here, later, -⟩
  exact later (index?_of_getElem? nodup here)

end Columns

/-! ## What is read -/

/-- The custom flags of a standard file: which names are taken for them, and what is read. -/
structure FlagColumns (t : Table) (names : List String) : Prop where
  nodup : names.Nodup
  /-- A later column of a name can make it a flag too. -/
  mem_iff : ∀ c, c ∈ names ↔ c ≠ "" ∧ c ∉ Column.known ∧ (t.ReadsFlags c ∨ t.HasLaterFlags c)
  /-- Without repeated headers, the names are those whose cells are truth values. -/
  unrepeated : t.columns.Nodup → ∀ c, c ∈ names ↔ c ≠ "" ∧ c ∉ Column.known ∧ t.ReadsFlags c
  /-- A row has the flags that its cells say, in the listed columns. -/
  get : ∀ row r, t.standardRow names row = .ok r → ∀ c, Dict.get? c r.customFlags =
    if c ∈ names then (t.cell? row c).bind Literal.bool? else none
  /-- No truth value is lost in a column whose cells are truth values. -/
  kept : ∀ c, c ≠ "" → c ∉ Column.known → t.ReadsFlags c → ∀ row ∈ t.rows, ∀ r,
    t.standardRow names row = .ok r → ∀ v, t.cell? row c = some v →
      ∃ b, Literal.bool? v = some b ∧ Dict.get? c r.customFlags = some b

theorem customFlags_standardRow {t : Table} {names : List String} {row : Row} {r : HierarchyRow}
    (read : t.standardRow names row = .ok r) : r.customFlags = t.customFlags row names := by
  unfold standardRow at read
  iterate 8
    obtain ⟨_, -, read⟩ := Except.bind_eq_ok_iff.mp read
  cases read
  rfl

/-- The flags of a row, by column. -/
theorem get?_customFlags {t : Table} {names : List String} (nodup : names.Nodup) (row : Row)
    (c : String) : Dict.get? c (t.customFlags row names) =
      if c ∈ names then (t.cell? row c).bind Literal.bool? else none := by
  rw [customFlags, Dict.get?_ofList (nodup.sublist (map_fst_filterMap _ _)), lookup_filterMap]
  simp only [List.contains_iff_mem]

/-- The custom flags of a standard file. -/
theorem flagColumns_standard (t : Table) : t.FlagColumns (t.customFlagColumns .standard) := by
  have nodup := nodup_customFlagColumns t .standard
  have get : ∀ row r, t.standardRow (t.customFlagColumns .standard) row = .ok r → ∀ c,
      Dict.get? c r.customFlags = if c ∈ t.customFlagColumns .standard then
        (t.cell? row c).bind Literal.bool? else none := by
    intro row r read c
    rw [customFlags_standardRow read, get?_customFlags nodup]
  refine ⟨nodup, fun c => mem_customFlagColumns_iff, fun apart c => ?_, get, ?_⟩
  · rw [mem_customFlagColumns_iff, or_iff_left (not_hasLaterFlags apart)]
  · intro c ne free reads row hrow r read v filled
    obtain ⟨b, hb⟩ := Option.isSome_iff_exists.mp (reads.2 row hrow v filled)
    refine ⟨b, hb, ?_⟩
    rw [get row r read, if_pos (mem_customFlagColumns_iff.mpr ⟨ne, free, Or.inl reads⟩), filled,
      Option.bind_some, hb]

/-! ## Repeated names -/

/-- A table with a text and a truth value in two columns of one name. -/
def twoPriorities : Table :=
  { headers := ["HIERARCHY_ID", "Priority", "priority"]
    columns := ["HIERARCHY_ID", "PRIORITY", "PRIORITY"]
    rows := [⟨1, ["A", "maybe", "TRUE"]⟩]
    problems := [] }

/-- A name can be taken for a flag although its cells are no truth values. -/
theorem not_readsFlags_of_customFlagColumn :
    ¬ ∀ (t : Table) (c : String), c ∈ t.customFlagColumns .standard ↔
      c ≠ "" ∧ c ∉ Column.known ∧ t.ReadsFlags c := by
  intro claimed
  have listed : "PRIORITY" ∈ twoPriorities.customFlagColumns .standard := by decide +kernel
  obtain ⟨-, -, -, values⟩ := (claimed twoPriorities "PRIORITY").mp listed
  have text := values ⟨1, ["A", "maybe", "TRUE"]⟩ (by decide) "maybe" (by decide +kernel)
  exact absurd text (by decide +kernel)

end Rollup.Table

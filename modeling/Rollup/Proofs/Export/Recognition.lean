import Mathlib.Data.List.Basic
import Rollup.Format
import Rollup.Proofs.Export.RowKeys
import Rollup.Proofs.Table

/-!
# Exports are recognised

The columns of the hierarchy family are more than those of the mapping family, and some of them never
stand in legacy files. So headers that have all of them belong to a hierarchy file, whatever further
headers there are and in whatever order. An export has them all.

Results:

* `Format.detect_of_family`: headers with all columns of the hierarchy family.
* `hierarchyFamily_mem_header`: the header of an export has all these columns.
* `exists_ofText_hierarchy`: the table of an export, whatever its custom flags are called.
* `detect_hierarchy`: an export is recognised.
-/

namespace Rollup

/-! ## Headers with a whole family -/

namespace Format

/-- A family scores at most its number of columns. -/
theorem score_le_length (family headers : List String) : score family headers ≤ family.length :=
  List.length_filter_le _ _

/-- A family scores its number of columns if all of them are spelled. -/
theorem score_eq_length {family headers : List String}
    (spelled : ∀ column ∈ family, ∃ h ∈ headers, spells column h = true) :
    score family headers = family.length := by
  rw [score, List.filter_eq_self.mpr]
  intro column mem
  exact List.any_eq_true.mpr (spelled column mem)

/-- The columns of the hierarchy family spell themselves. -/
theorem spells_hierarchyFamily : ∀ column ∈ hierarchyFamily, spells column column = true := by
  decide

theorem standardOnly_subset : ∀ column ∈ standardOnly, column ∈ hierarchyFamily := by
  decide

section Family

variable {headers : List String} (all : ∀ column ∈ hierarchyFamily, column ∈ headers)

include all

theorem spelled_of_family : ∀ column ∈ hierarchyFamily, ∃ h ∈ headers, spells column h = true :=
  fun column mem => ⟨column, all column mem, spells_hierarchyFamily column mem⟩

/-- The mapping family cannot score as much. -/
theorem mappingScore_lt_hierarchyScore : mappingScore headers < hierarchyScore headers := by
  have few : mappingScore headers ≤ 8 := score_le_length mappingFamily headers
  have many : score hierarchyFamily headers = 9 := score_eq_length (spelled_of_family all)
  rw [hierarchyScore, many]
  omega

theorem hasStandardOnly_of_family : hasStandardOnly headers = true := by
  have ruled : score standardOnly headers = 2 :=
    score_eq_length fun column mem => spelled_of_family all column (standardOnly_subset column mem)
  rw [hasStandardOnly, ruled]
  rfl

/-- Headers with all columns of the hierarchy family are those of a hierarchy file, with full
    confidence. -/
theorem detect_of_family :
    (detect headers).format = .hierarchy ∧ (detect headers).confidence = 100 := by
  have many : score hierarchyFamily headers = 9 := score_eq_length (spelled_of_family all)
  have enough : 9 ≤ hierarchyScore headers := by
    rw [hierarchyScore, many]
    exact Nat.le_add_right _ _
  have tabular : tabularThreshold ≤ hierarchyScore headers := Nat.le_trans (by decide) enough
  have notLegacy : ¬ (legacyThreshold ≤ legacyScore headers ∧ hasStandardOnly headers = false) := by
    rw [hasStandardOnly_of_family all]
    simp
  unfold detect
  dsimp only
  rw [if_neg notLegacy, if_pos ⟨mappingScore_lt_hierarchyScore all, tabular⟩]
  exact ⟨rfl, Nat.min_eq_right (by omega)⟩

end Family

end Format

namespace Export

/-! ## The header of an export -/

theorem hierarchyFamily_mem_header (nodes : List Node) (options : ExportOptions) :
    ∀ column ∈ Format.hierarchyFamily,
      column ∈ (Sheet.ofNodes nodes options).layout.header := by
  have fixed : ∀ column ∈ Format.hierarchyFamily, column ∈ Column.fixed := by decide
  exact fun column mem => fixed_mem_header options (fixed column mem)

/-- Every row of an export is as wide as its header. -/
theorem length_of_mem_records {s : Sheet} {options : ExportOptions} {r : List String}
    (mem : r ∈ s.records options) : r.length = s.layout.header.length := by
  rw [← Sheet.flatMap_blocks] at mem
  obtain ⟨b, hb, row⟩ := List.mem_flatMap.mp mem
  obtain ⟨q, -, key, rfl⟩ := Sheet.mem_blocksFrom _ _ hb
  rcases List.mem_cons.mp row with rfl | further
  · exact (Layout.length_fill _ _).trans (s.length_sharedRow q.1 q.2)
  · obtain ⟨cells, -, rfl⟩ := List.mem_map.mp further
    exact (Layout.length_fill _ _).trans (s.length_sharedRow q.1 q.2)

/-- An export is read as a table with its header, whatever its nodes hold. -/
theorem exists_ofText_hierarchy (nodes : List Node) (options : ExportOptions) :
    ∃ t, Table.ofText (hierarchy nodes options) = .ok t ∧
      t.headers = (Sheet.ofNodes nodes options).layout.header.map Text.trim := by
  set s := Sheet.ofNodes nodes options
  have header : s.layout.header = Column.hierarchyId :: s.layout.header.tail := rfl
  have decoded := Table.decoded_write header (by decide)
    fun r (hr : r ∈ s.records options) => length_of_mem_records hr
  have named : ¬ (s.layout.header.map Text.trim).all (· == "") = true := by
    rw [header]
    intro all
    exact absurd (List.all_eq_true.mp all (Text.trim Column.hierarchyId) (by simp)) (by decide)
  have width : ∀ r ∈ s.records options,
      r.length = (Table.ofHeaders (s.layout.header.map Text.trim)).headers.length := by
    intro r hr
    rw [length_of_mem_records hr, Table.ofHeaders, List.length_map]
  have read : Table.ofText (s.layout.write (s.records options)) =
      .ok ((Table.ofHeaders (s.layout.header.map Text.trim)).addRecords
        ((s.records options).map .ok)) := by
    rw [Table.ofText, decoded, Table.ofRecords]
    exact if_neg named
  rw [Table.addRecords_of_width width] at read
  exact ⟨_, read, rfl⟩

/-! ## Recognition -/

/-- The first line of an export is a header that is recognised with full confidence as that of a
    hierarchy file, whatever the custom flags are called, in every order of its columns and with any
    further ones. The table that is read from an export has such a header. -/
theorem detect_hierarchy (nodes : List Node) (options : ExportOptions) :
    let s := Sheet.ofNodes nodes options
    hierarchy nodes options = Csv.encode (s.layout.header :: s.records options) ∧
      (∀ further headers : List String, headers.Perm (s.layout.header ++ further) →
        (Format.detect headers).format = .hierarchy ∧ (Format.detect headers).confidence = 100) ∧
      ∃ t, Table.ofText (hierarchy nodes options) = .ok t ∧
        (Format.detect t.headers).format = .hierarchy ∧
        (Format.detect t.headers).confidence = 100 := by
  intro s
  have all := hierarchyFamily_mem_header nodes options
  refine ⟨rfl, fun further headers perm => ?_, ?_⟩
  · refine Format.detect_of_family fun column mem => perm.mem_iff.mpr ?_
    exact List.mem_append_left _ (all column mem)
  · obtain ⟨t, read, headers⟩ := exists_ofText_hierarchy nodes options
    refine ⟨t, read, Format.detect_of_family fun column mem => ?_⟩
    have trimmed : ∀ column ∈ Format.hierarchyFamily, Text.trim column = column := by decide
    rw [headers, ← trimmed column mem]
    exact List.mem_map_of_mem (all column mem)

/-- A node with flags that are called like columns of the other two families. -/
def rivalFlags : List Node :=
  [{ id := "1", hierarchyId := "A", projectId := "P", name := "Alpha",
     customFlags := ["MAPPING_INDEX", "SIGN_CHANGE_FLAG", "SOURCE_TABLE", "VOLUME_FLAG",
       "source column"].map fun name => (name, true) }]

/-- With further columns, and the last one first, the mapping family and the legacy family reach
    their thresholds as well. -/
theorem detect_hierarchy_rivalFlags :
    let headers := ((Sheet.ofNodes rivalFlags {}).layout.header ++
      ["SOURCE_SCHEMA", "LEVEL_1_SORT", "Formula-Group"]).reverse
    Format.legacyScore headers = 4 ∧ Format.mappingScore headers = 4 ∧
      (Format.detect headers).format = .hierarchy ∧ (Format.detect headers).confidence = 100 :=
  ⟨by decide +kernel, by decide +kernel,
    (detect_hierarchy rivalFlags {}).2.1 _ _ (List.reverse_perm _)⟩

end Export

end Rollup

import Mathlib.Data.List.Basic
import Mathlib.Data.List.Nodup
import Rollup.Proofs.Format
import Rollup.Proofs.HierarchyRow.Flags
import Rollup.Proofs.Table
import Rollup.Service

/-!
# The order and the spelling of columns

A row is read by the names of the columns only. If these are distinct, a table whose columns stand
in another order, together with their cells, and whose headers are spelled in another way, is read
row by row as before, down to the error of a row that does not fit. So both tables are imported
with the same outcome. The format of a file depends on which headers it has, not on their order or
number.

Results:

* `cell?_arranged`: the cells of a rearranged table.
* `hierarchyRow_congr`, `mappingRow_congr`: rows that agree under every column are read alike.
* `rows_arranged`: the rows, the outcome of both imports and the format.
* `importTable_arranged`, `importMappings_arranged`: the same for the calls of the service, which
  look at the headers as well.
-/

namespace Rollup

/-! ## Rearranging -/

/-- The texts at the given positions; where there is none, a blank one stands in. -/
def Row.pick (order : List Nat) (texts : List String) : List String :=
  order.map fun i => (texts[i]?).getD ""

/-- The row with its cells in another order. -/
def Row.arranged (order : List Nat) (row : Row) : Row :=
  { row with cells := pick order row.cells }

namespace Table

/-- The table with its columns in another order, together with their cells, and with the given
    headers over them. -/
def arranged (t : Table) (order : List Nat) (headers : List String) : Table :=
  { headers := headers
    columns := headers.map Column.normalize
    rows := t.rows.map (Row.arranged order)
    problems := t.problems }

/-- The order lists each column of the table once, and the headers have the canonical names of the
    columns in that order. -/
structure Arranges (t : Table) (order : List Nat) (headers : List String) : Prop where
  perm : order.Perm (List.range t.columns.length)
  named : headers.map Column.normalize = Row.pick order t.columns

end Table

theorem Row.getElem?_pick {order : List Nat} {i j : Nat} (here : order[j]? = some i)
    (texts : List String) : (pick order texts)[j]? = some ((texts[i]?).getD "") := by
  rw [pick, List.getElem?_map, here, Option.map_some]

/-- The texts at all positions, in some order, are all texts. -/
theorem Row.perm_pick {order : List Nat} {texts : List String}
    (perm : order.Perm (List.range texts.length)) : (pick order texts).Perm texts := by
  have all : pick (List.range texts.length) texts = texts := by
    refine List.ext_getElem (by simp [pick]) fun i _ bound => ?_
    simp [pick, bound]
  exact (perm.map _).trans (List.Perm.of_eq all)

namespace Table

section Arranged

variable {t : Table} {order : List Nat} {headers : List String}

/-- The headers of the table themselves, in another order. -/
theorem Arranges.of_perm (canonical : t.columns = t.headers.map Column.normalize)
    (perm : order.Perm (List.range t.headers.length)) : t.Arranges order (Row.pick order t.headers) where
  perm := by rwa [canonical, List.length_map]
  named := by
    have inside : ∀ i ∈ order, i < t.headers.length :=
      fun i hi => List.mem_range.mp (perm.mem_iff.mp hi)
    rw [Row.pick, Row.pick, List.map_map, canonical]
    refine List.map_congr_left fun i hi => ?_
    simp [inside i hi]

variable (distinct : t.columns.Nodup) (arr : t.Arranges order headers)

include arr in
theorem perm_columns_arranged : (t.arranged order headers).columns.Perm t.columns := by
  rw [arranged, arr.named]
  exact Row.perm_pick arr.perm

include arr in
theorem hasColumn_arranged (c : String) :
    (t.arranged order headers).hasColumn c = t.hasColumn c := by
  rw [Bool.eq_iff_iff, hasColumn, hasColumn, List.contains_iff_mem, List.contains_iff_mem,
    (perm_columns_arranged arr).mem_iff]

theorem index?_eq_none_iff {c : String} : t.index? c = none ↔ c ∉ t.columns := by
  rw [index?, List.findIdx?_eq_none_iff]
  simp only [beq_eq_false_iff_ne]
  exact List.forall_mem_ne'

include distinct arr

/-- A cell of a rearranged row is found by the name of its column. -/
theorem cell?_arranged (row : Row) (c : String) :
    (t.arranged order headers).cell? (row.arranged order) c = t.cell? row c := by
  have perm := perm_columns_arranged arr
  unfold cell?
  cases first : t.index? c with
  | none =>
    have absent : c ∉ (t.arranged order headers).columns :=
      fun mem => index?_eq_none_iff.mp first (perm.mem_iff.mp mem)
    rw [index?_eq_none_iff.mpr absent]
    rfl
  | some i =>
    have here : t.columns[i]? = some c := getElem?_of_index? first
    have bound : i < t.columns.length := (List.getElem?_eq_some_iff.mp here).1
    obtain ⟨j, hj⟩ := List.getElem?_of_mem (arr.perm.mem_iff.mpr (List.mem_range.mpr bound))
    have moved : (t.arranged order headers).columns[j]? = some c := by
      rw [arranged, arr.named, Row.getElem?_pick hj, here, Option.getD_some]
    rw [index?_of_getElem? (perm.nodup_iff.mpr distinct) moved, Option.bind_some, Option.bind_some,
      Row.arranged, Row.getElem?_pick hj, Option.bind_some]
    cases row.cells[i]? with
    | none => exact nonBlank?_empty
    | some cell => rfl

end Arranged

/-! ## Rows that agree -/

/-- Rows of two tables that have the same number and the same cell under every column. -/
structure Agree (t : Table) (row : Row) (t' : Table) (row' : Row) : Prop where
  number : row'.number = row.number
  cell : ∀ c, t'.cell? row' c = t.cell? row c

section Agree

variable {t t' : Table} {row row' : Row} (agree : Agree t row t' row')

include agree

theorem text?_congr (c : String) : t'.text? row' c = t.text? row c := by
  rw [text?, text?, agree.cell]

theorem typed_congr {α : Type} (read : String → Option α) (reason c : String) :
    typed read reason t' row' c = typed read reason t row c := by
  rw [typed, typed, text?_congr agree, agree.number]

theorem parts_congr (c : String) : t'.parts row' c = t.parts row c := by
  rw [parts, parts, agree.cell]

theorem typedParts_congr {α : Type} (read : String → Option α) (reason c : String) :
    typedParts read reason t' row' c = typedParts read reason t row c := by
  rw [typedParts, typedParts, parts_congr agree, agree.number]

theorem levels_congr : t'.levels row' = t.levels row := by
  simp only [levels, agree.cell]

theorem levelSorts_congr (column : Nat → String) :
    t'.levelSorts row' column = t.levelSorts row column := by
  simp only [levelSorts, int, typed_congr agree]

theorem flags_congr : t'.flags row' = t.flags row := by
  simp only [flags, bool, typed_congr agree]

theorem filterGroups_congr : t'.filterGroups row' = t.filterGroups row := by
  simp only [filterGroups, text?_congr agree]

theorem inlineMapping_congr : t'.inlineMapping row' = t.inlineMapping row := by
  simp only [inlineMapping, int, typed_congr agree, text?_congr agree]

/-- Flags are read by column, so the order of the columns does not count. -/
theorem customFlags_congr {names names' : List String} (perm : names'.Perm names)
    (nodup : names.Nodup) : t'.customFlags row' names' = t.customFlags row names := by
  refine Dict.ext_get? (Dict.ordered_ofList _) (Dict.ordered_ofList _) fun c => ?_
  rw [get?_customFlags (perm.nodup_iff.mpr nodup), get?_customFlags nodup, agree.cell]
  simp only [perm.mem_iff]

theorem standardFormula_congr : t'.standardFormula row' = t.standardFormula row := by
  simp only [standardFormula, operation, typed_congr agree, typedParts_congr agree,
    text?_congr agree, parts_congr agree]

theorem standardSorts_congr : t'.standardSorts row' = t.standardSorts row := by
  simp only [standardSorts, levelSorts_congr agree]

/-- Rows that agree under every column are read alike, or fail with the same error. -/
theorem hierarchyRow_congr {names names' : List String} (perm : names'.Perm names)
    (nodup : names.Nodup) (d : Dialect) :
    t'.hierarchyRow d names' row' = t.hierarchyRow d names row := by
  have custom := customFlags_congr agree perm nodup
  cases d with
  | standard =>
    simp only [hierarchyRow, standardRow, standardSorts_congr agree, inlineMapping_congr agree,
      bool, int, typed_congr agree, flags_congr agree, standardFormula_congr agree,
      text?_congr agree, levels_congr agree, filterGroups_congr agree, custom, agree.number]
  | legacy =>
    simp only [hierarchyRow, legacyRow, inlineMapping_congr agree, int, Table.number,
      typed_congr agree, levelSorts_congr agree, flags_congr agree, text?_congr agree,
      levels_congr agree, filterGroups_congr agree, custom, agree.number]

/-- The same for the rows of mapping files. -/
theorem mappingRow_congr : t'.mappingRow row' = t.mappingRow row := by
  simp only [mappingRow, inlineMapping_congr agree, bool, typed_congr agree, text?_congr agree,
    agree.number]

end Agree

/-! ## Rows of rearranged tables -/

/-- Without repeated names, the names that are taken for flags are decided by the cells that are
    read for them. -/
theorem mem_customFlagColumns_of_nodup {t : Table} (distinct : t.columns.Nodup) {d : Dialect}
    {c : String} : c ∈ t.customFlagColumns d ↔ c ∈ t.columns ∧ c ≠ "" ∧
      (d = .legacy ∧ c ∈ Column.legacyFlags ∨ c ∉ Column.known ∧ t.ReadsFlags c) := by
  have counts : ∀ i, t.columns[i]? = some c → (t.isCustomFlag d c i = true ↔ c ≠ "" ∧
      (d = .legacy ∧ c ∈ Column.legacyFlags ∨ c ∉ Column.known ∧ t.ReadsFlags c)) := by
    intro i here
    rw [readsFlags_iff (index?_of_getElem? distinct here)]
    simp [isCustomFlag]
  rw [mem_customFlagColumns, List.mem_iff_getElem?, ← exists_and_right]
  exact exists_congr fun i => and_congr_right fun here => counts i here

section Arranged

variable {t : Table} {order : List Nat} {headers : List String} (distinct : t.columns.Nodup)
  (arr : t.Arranges order headers)

include distinct arr

theorem agree_arranged (row : Row) :
    Agree t row (t.arranged order headers) (row.arranged order) :=
  ⟨rfl, cell?_arranged distinct arr row⟩

theorem readsFlags_arranged {c : String} :
    (t.arranged order headers).ReadsFlags c ↔ t.ReadsFlags c := by
  have rows : (t.arranged order headers).rows = t.rows.map (Row.arranged order) := rfl
  simp only [ReadsFlags, rows, List.mem_map, exists_exists_and_eq_and, forall_exists_index,
    and_imp, forall_apply_eq_imp_iff₂, cell?_arranged distinct arr]

/-- The same names are taken for flags, in another order. -/
theorem perm_customFlagColumns_arranged (d : Dialect) :
    ((t.arranged order headers).customFlagColumns d).Perm (t.customFlagColumns d) := by
  have perm := perm_columns_arranged arr
  rw [List.perm_ext_iff_of_nodup (nodup_customFlagColumns _ d) (nodup_customFlagColumns t d)]
  intro c
  rw [mem_customFlagColumns_of_nodup (perm.nodup_iff.mpr distinct),
    mem_customFlagColumns_of_nodup distinct, perm.mem_iff, readsFlags_arranged distinct arr]

theorem hierarchyRow_arranged (d : Dialect) (row : Row) :
    (t.arranged order headers).hierarchyRow d ((t.arranged order headers).customFlagColumns d)
        (row.arranged order) = t.hierarchyRow d (t.customFlagColumns d) row :=
  hierarchyRow_congr (agree_arranged distinct arr row)
    (perm_customFlagColumns_arranged distinct arr d) (nodup_customFlagColumns t d) d

/-- A rearranged hierarchy file is imported with the same outcome. -/
theorem import_arranged (search : TotalPlan.SearchOrder) (g : WriteGuard) (s : Store)
    (project : String) (d : Dialect) (w : Window) :
    Import.tableIn search g s project d w (t.arranged order headers) =
      Import.tableIn search g s project d w t := by
  have outcomes : (t.arranged order headers).rows.map
      ((t.arranged order headers).hierarchyRow d
        ((t.arranged order headers).customFlagColumns d)) =
      t.rows.map (t.hierarchyRow d (t.customFlagColumns d)) := by
    rw [arranged, List.map_map]
    exact List.map_congr_left fun row _ => hierarchyRow_arranged distinct arr d row
  rw [Import.tableIn, Import.tableIn, outcomes, hasColumn_arranged arr]
  rfl

/-- A rearranged mapping file is imported with the same outcome. -/
theorem mappingImport_arranged (g : WriteGuard) (s : Store) (project : String) :
    MappingImport.table g s project (t.arranged order headers) =
      MappingImport.table g s project t := by
  have outcomes : (t.arranged order headers).rows.map (t.arranged order headers).mappingRow =
      t.rows.map t.mappingRow := by
    rw [arranged, List.map_map]
    exact List.map_congr_left fun row _ => mappingRow_congr (agree_arranged distinct arr row)
  rw [MappingImport.table, MappingImport.table, outcomes]
  rfl

end Arranged

end Table

/-! ## The format -/

namespace Format

section Members

variable {headers headers' : List String} (same : ∀ h, h ∈ headers ↔ h ∈ headers')

include same

theorem any_congr_mem (p : String → Bool) : headers.any p = headers'.any p := by
  rw [Bool.eq_iff_iff, List.any_eq_true, List.any_eq_true]
  simp only [same]

theorem mem_levelNumbers_congr (tail : Option String) (n : Nat) :
    n ∈ levelNumbers tail headers ↔ n ∈ levelNumbers tail headers' := by
  simp only [levelNumbers, List.mem_filterMap, same]

theorem score_congr (family : List String) : score family headers = score family headers' := by
  simp only [score, any_congr_mem same]

theorem legacyScore_congr : legacyScore headers = legacyScore headers' := by
  have paired : ((levelNumbers none headers).any (levelNumbers (some "SORT") headers).contains) =
      (levelNumbers none headers').any (levelNumbers (some "SORT") headers').contains := by
    rw [Bool.eq_iff_iff, List.any_eq_true, List.any_eq_true]
    simp only [List.contains_iff_mem, mem_levelNumbers_congr same]
  rw [legacyScore, legacyScore, score_congr same, paired]

/-- The format is that of the set of headers. -/
theorem detect_congr : detect headers = detect headers' := by
  have hierarchy : hierarchyScore headers = hierarchyScore headers' := by
    rw [hierarchyScore, hierarchyScore, score_congr same, any_congr_mem same]
  have mapping : mappingScore headers = mappingScore headers' := score_congr same _
  have ruled : hasStandardOnly headers = hasStandardOnly headers' := by
    rw [hasStandardOnly, hasStandardOnly, score_congr same, any_congr_mem same]
  rw [detect, detect, legacyScore_congr same, hierarchy, mapping, ruled]

end Members

end Format

namespace Service

section Arranged

variable {t : Table} {order : List Nat} (canonical : t.columns = t.headers.map Column.normalize)
  (distinct : t.columns.Nodup) (perm : order.Perm (List.range t.headers.length))

include canonical distinct perm

/-- The columns of a hierarchy file may stand in any order. -/
theorem importTable_arranged (s : Store) (project : String) (dialect : Option Dialect) :
    importTable s project (t.arranged order (Row.pick order t.headers)) dialect =
      importTable s project t dialect := by
  have format : Format.detect (t.arranged order (Row.pick order t.headers)).headers =
      Format.detect t.headers := Format.detect_congr fun h => (Row.perm_pick perm).mem_iff
  simp only [importTable, importTableIn, format,
    Table.import_arranged distinct (Table.Arranges.of_perm canonical perm)]

/-- The columns of a mapping file may stand in any order. -/
theorem importMappings_arranged (s : Store) (project : String) :
    importMappings s project (t.arranged order (Row.pick order t.headers)) =
      importMappings s project t := by
  have format : Format.detect (t.arranged order (Row.pick order t.headers)).headers =
      Format.detect t.headers := Format.detect_congr fun h => (Row.perm_pick perm).mem_iff
  simp only [importMappings, format,
    Table.mappingImport_arranged distinct (Table.Arranges.of_perm canonical perm)]

end Arranged

end Service

namespace Table

/-- The order of the columns and the spelling of the headers do not matter: every row is read
    alike, or fails with the same error, and both imports have the same outcome. The format depends
    on which headers there are. -/
theorem rows_arranged {t : Table} {order : List Nat} {headers : List String}
    (distinct : t.columns.Nodup) (arr : t.Arranges order headers) :
    (∀ d row, (t.arranged order headers).hierarchyRow d
        ((t.arranged order headers).customFlagColumns d) (row.arranged order) =
      t.hierarchyRow d (t.customFlagColumns d) row) ∧
    (∀ row, (t.arranged order headers).mappingRow (row.arranged order) = t.mappingRow row) ∧
    (∀ g s project d w, Import.table g s project d w (t.arranged order headers) =
      Import.table g s project d w t) ∧
    (∀ g s project, MappingImport.table g s project (t.arranged order headers) =
      MappingImport.table g s project t) ∧
    ∀ hs hs' : List String, (∀ h, h ∈ hs ↔ h ∈ hs') → Format.detect hs = Format.detect hs' :=
  ⟨hierarchyRow_arranged distinct arr,
    fun row => mappingRow_congr (agree_arranged distinct arr row),
    import_arranged distinct arr .asUsed, mappingImport_arranged distinct arr,
    fun _ _ same => Format.detect_congr same⟩

/-- A table with a row that does not fit. -/
def ratedTable : Table :=
  { headers := ["Hierarchy Id", "sort-order", "Priority"]
    columns := ["HIERARCHY_ID", "SORT_ORDER", "PRIORITY"]
    rows := [⟨1, ["A", "7", "yes"]⟩, ⟨2, ["B", "late", "no"]⟩]
    problems := [] }

/-- The columns turned round under other spellings: the row that does not fit fails for the same
    cell, and the import stores the other one and reports this one. -/
theorem rows_arranged_rated :
    let order := [2, 0, 1]
    let headers := ["PRIORITY", "hierarchy_id", "SORT ORDER"]
    let u := ratedTable.arranged order headers
    let s : Store := { projects := [⟨"P1", "P1"⟩] }
    (ratedTable.columns.Nodup ∧ ratedTable.Arranges order headers) ∧
      u.rows = [⟨1, ["yes", "A", "7"]⟩, ⟨2, ["no", "B", "late"]⟩] ∧
      u.hierarchyRow .standard (u.customFlagColumns .standard) ⟨2, ["no", "B", "late"]⟩ =
        .error (.badCell 2 Column.sortOrder "late" "not an integer") ∧
      (Import.table .permissive s "P1" .standard .standard u).toOption.map (fun r =>
          (r.1.nodes.map fun n => (n.hierarchyId, n.sortOrder), r.2)) =
        some ([("A", 7)],
          { imported := 1
            errors := ["row 2: invalid SORT_ORDER value 'late': not an integer"] }) := by
  intro order headers u s
  have distinct : ratedTable.columns.Nodup := by decide
  have arr : ratedTable.Arranges order headers := ⟨by decide, by decide +kernel⟩
  obtain ⟨rows, -, imports, -⟩ := rows_arranged distinct arr
  have misfit : ratedTable.hierarchyRow .standard (ratedTable.customFlagColumns .standard)
      ⟨2, ["B", "late", "no"]⟩ =
        .error (.badCell 2 Column.sortOrder "late" "not an integer") := by rfl
  refine ⟨⟨distinct, arr⟩, rfl, (rows .standard ⟨2, ["B", "late", "no"]⟩).trans misfit, ?_⟩
  rw [imports]
  decide +kernel

end Table

end Rollup

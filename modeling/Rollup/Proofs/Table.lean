import Mathlib.Data.List.Basic
import Mathlib.Tactic.SplitIfs
import Rollup.Proofs.Csv
import Rollup.Proofs.Layout
import Rollup.Table

/-!
# The table of a written file

A file that is written in a layout is read as a table with the same headers and one row for each
record that is not blank. Blank records are dropped, but they keep their numbers.

Results:

* `ofText_write_records`: the table of a written file, whatever its records hold.
* `ofText_write`: the same for canonical headers and records that are not blank.
* `cell?_written`: a cell of such a table is the cell of the record, if it is not blank.
-/

namespace Rollup.Table

/-! ## Adding records -/

/-- The rows of the records that are not blank; records are numbered from `first` on. -/
def nonBlankRows (first : Nat) (records : List (List String)) : List Row :=
  ((records.zipIdx first).filter fun q => !q.1.all Text.isAllBlank).map fun q => ⟨q.2, q.1⟩

theorem nonBlankRows_cons (first : Nat) (record : List String) (records : List (List String)) :
    nonBlankRows first (record :: records) =
      (if record.all Text.isAllBlank then [] else [⟨first, record⟩]) ++
        nonBlankRows (first + 1) records := by
  rw [nonBlankRows, List.zipIdx_cons, List.filter_cons]
  cases record.all Text.isAllBlank <;> rfl

theorem addRecord_of_width {t : Table} {record : List String}
    (width : record.length = t.headers.length) (number : Nat) :
    t.addRecord number record = { t with
      rows := t.rows ++ if record.all Text.isAllBlank then [] else [⟨number, record⟩] } := by
  have surplus : record.drop t.headers.length = [] := by
    rw [List.drop_eq_nil_iff]
    exact Nat.le_of_eq width
  have padded : record.take t.headers.length ++
      List.replicate (t.headers.length - record.length) "" = record := by
    rw [← width, List.take_length, Nat.sub_self, List.replicate_zero, List.append_nil]
  unfold addRecord
  dsimp only
  rw [surplus, padded, if_neg (show ¬ (!List.all [] Text.isAllBlank) = true by simp)]
  split_ifs
  · rw [List.append_nil]
  · rfl

/-- Adding records that are as wide as the header raises no problems. -/
theorem addRecords_of_width {t : Table} {records : List (List String)}
    (width : ∀ r ∈ records, r.length = t.headers.length) :
    t.addRecords (records.map .ok) = { t with rows := t.rows ++ nonBlankRows 1 records } := by
  unfold addRecords
  generalize 1 = n
  induction records generalizing n t with
  | nil => simp [nonBlankRows]
  | cons r records ih =>
    rw [List.map_cons, List.zipIdx_cons, List.foldl_cons]
    dsimp only
    rw [addRecord_of_width (width r (by simp)) n, nonBlankRows_cons, ← List.append_assoc]
    exact ih (t := { t with rows := t.rows ++ _ }) (fun r hr => width r (by simp [hr])) (n + 1)

/-! ## Written files -/

/-- The records of a written file, the header first. -/
theorem decoded_write {l : Layout} {c : String} {more : List String}
    (header : l.header = c :: more) (unmarked : c.toList.head? ≠ some '\uFEFF')
    {records : List (List String)} (width : ∀ r ∈ records, r.length = l.header.length) :
    (Csv.records Csv.Marks.chars (l.write records).toList).map
        (fun r => (.ok (r.fields.map String.ofList) : Decoded)) =
      .ok l.header :: records.map .ok := by
  have nonempty : ∀ r ∈ l.header :: records, r ≠ [] := by
    intro r hr
    rcases List.mem_cons.mp hr with rfl | hr
    · rw [header]
      exact List.cons_ne_nil _ _
    · have := width r hr
      rw [header] at this
      exact List.ne_nil_of_length_pos (by rw [this]; simp)
  have start : (Csv.encode (l.header :: records)).toList.head? ≠ some '\uFEFF' := by
    rw [header]
    exact Csv.head?_encode unmarked (by decide)
  have read := Csv.fields_records_encode nonempty start
  have decoded := congrArg (List.map (Except.ok : List String → Decoded)) read
  rw [List.map_map] at decoded
  exact decoded

/-- A written file is read as a table with the same headers and, under their numbers, the records
    that are not blank, whatever their cells hold. -/
theorem ofText_write_records {l : Layout} (trimmed : ∀ c ∈ l.header, Text.trim c = c)
    (named : ∃ c ∈ l.header, c ≠ "")
    (unmarked : ∀ c, l.header.head? = some c → c.toList.head? ≠ some '\uFEFF')
    {records : List (List String)} (width : ∀ r ∈ records, r.length = l.header.length) :
    ofText (l.write records) = .ok
      { headers := l.header
        columns := l.header.map Column.normalize
        rows := nonBlankRows 1 records
        problems := [] } := by
  obtain ⟨c, mem, ne⟩ := named
  obtain ⟨first, more, header⟩ := List.exists_cons_of_ne_nil (List.ne_nil_of_mem mem)
  have headers : l.header.map Text.trim = l.header :=
    (List.map_congr_left trimmed).trans (List.map_id _)
  have someName : ¬ l.header.all (· == "") = true := by
    rw [List.all_eq_true]
    intro all
    exact ne (by simpa using all c mem)
  rw [ofText, decoded_write header (unmarked first (by rw [header]; rfl)) width, ofRecords, headers,
    if_neg someName, addRecords_of_width width, ofHeaders, List.nil_append]

/-- Line ends, commas, quotes and blanks inside cells come back, a blank record leaves a gap in the
    row numbers, and a header may have cells without a name. -/
theorem ofText_write_records_gap :
    let l : Layout := ⟨["NAME", "", "a, \"b\""]⟩
    let records := [["x\r\ny", " lead", "\""], ["", " ", "\t"], ["", ",", "trail "]]
    ((∀ c ∈ l.header, Text.trim c = c) ∧ (∃ c ∈ l.header, c ≠ "") ∧
      ∀ r ∈ records, r.length = l.header.length) ∧
    ofText (l.write records) = .ok
      { headers := l.header
        columns := ["NAME", "", "A,_\"B\""]
        rows := [⟨1, ["x\r\ny", " lead", "\""]⟩, ⟨3, ["", ",", "trail "]⟩]
        problems := [] } := by
  intro l records
  have trimmed : ∀ c ∈ l.header, Text.trim c = c := by decide +kernel
  have named : ∃ c ∈ l.header, c ≠ "" := by decide
  have width : ∀ r ∈ records, r.length = l.header.length := by decide
  refine ⟨⟨trimmed, named, width⟩, ?_⟩
  rw [ofText_write_records trimmed named (by rintro c ⟨⟩; decide) width]
  decide +kernel

/-! ## Exported tables -/

/-- The table with the records of a layout. -/
def written (l : Layout) (records : List (List String)) : Table :=
  { headers := l.header
    columns := l.header
    rows := (records.zipIdx 1).map fun q => ⟨q.2, q.1⟩
    problems := [] }

/-- A record of a layout that is not blank. -/
structure Fits (l : Layout) (record : List String) : Prop where
  width : record.length = l.header.length
  filled : ∃ cell ∈ record, Text.isAllBlank cell = false

/-- The table of a file with canonical headers and no blank record. -/
theorem ofText_write {l : Layout} {c : String} {more : List String}
    (header : l.header = c :: more) (named : c ≠ "")
    (canonical : ∀ c ∈ l.header, Text.trim c = c ∧ Column.normalize c = c)
    (unmarked : c.toList.head? ≠ some '\uFEFF')
    {records : List (List String)} (fits : ∀ r ∈ records, Fits l r) :
    ofText (l.write records) = .ok (written l records) := by
  have headers : l.header.map Text.trim = l.header :=
    (List.map_congr_left fun c hc => (canonical c hc).1).trans (List.map_id _)
  have columns : l.header.map Column.normalize = l.header :=
    (List.map_congr_left fun c hc => (canonical c hc).2).trans (List.map_id _)
  have someName : ¬ l.header.all (· == "") = true := by
    simp [header, named]
  have rows : nonBlankRows 1 records = (records.zipIdx 1).map fun q => ⟨q.2, q.1⟩ := by
    rw [nonBlankRows, List.filter_eq_self.mpr]
    intro q hq
    obtain ⟨cell, mem, filled⟩ := (fits q.1 (List.fst_mem_of_mem_zipIdx hq)).filled
    rw [Bool.not_eq_true', List.all_eq_false]
    exact ⟨cell, mem, by simp [filled]⟩
  rw [ofText, decoded_write header unmarked fun r hr => (fits r hr).width, ofRecords, headers,
    if_neg someName, addRecords_of_width fun r hr => (fits r hr).width, ofHeaders, columns,
    List.nil_append, rows]
  rfl

theorem nonBlank?_empty : nonBlank? "" = none := by
  simp [nonBlank?, Text.trim, Text.trimChars, Text.trimEndChars]

section Written

variable {l : Layout} {records : List (List String)}

theorem mem_rows_written {row : Row} (mem : row ∈ (written l records).rows) :
    row.cells ∈ records := by
  obtain ⟨q, hq, rfl⟩ := List.mem_map.mp mem
  exact List.fst_mem_of_mem_zipIdx hq

theorem exists_row_written {record : List String} (mem : record ∈ records) :
    ∃ row ∈ (written l records).rows, row.cells = record := by
  have mem : record ∈ (records.zipIdx 1).map (·.1) := by rwa [List.zipIdx_map_fst]
  obtain ⟨q, hq, rfl⟩ := List.mem_map.mp mem
  exact ⟨⟨q.2, q.1⟩, List.mem_map.mpr ⟨q, hq, rfl⟩, rfl⟩

theorem index?_written (nodup : l.header.Nodup) (column : String) :
    (written l records).index? column = l.index? column := by
  by_cases mem : column ∈ l.header
  · obtain ⟨i, hi⟩ : ∃ i, (written l records).index? column = some i := by
      rw [← Option.isSome_iff_exists, index?, List.findIdx?_isSome, List.any_eq_true]
      exact ⟨column, mem, by simp⟩
    obtain ⟨bound, same, -⟩ := List.findIdx?_eq_some_iff_getElem.mp hi
    change i < l.header.length at bound
    change (l.header[i] == column) = true at same
    have same : l.header[i]? = some column := by
      rw [List.getElem?_eq_getElem bound, beq_iff_eq.mp same]
    rw [hi, Layout.index?_of_getElem? nodup same]
  · rw [Layout.index?_of_notMem mem, index?, List.findIdx?_eq_none_iff]
    intro c hc
    rw [beq_eq_false_iff_ne]
    rintro rfl
    exact mem hc

/-- A cell of a written table is the cell of the record, if it is not blank. -/
theorem cell?_written (nodup : l.header.Nodup) (row : Row) (column : String) :
    (written l records).cell? row column = nonBlank? (l.get row.cells column) := by
  unfold cell? Layout.get
  rw [index?_written nodup]
  cases l.index? column with
  | none => exact nonBlank?_empty.symm
  | some i =>
    rw [Option.bind_some, Option.bind_some]
    cases row.cells[i]? with
    | none => exact nonBlank?_empty.symm
    | some cell => rw [Option.bind_some, Option.getD_some]

theorem hasColumn_written {column : String} :
    (written l records).hasColumn column = true ↔ column ∈ l.header := by
  rw [hasColumn, List.contains_iff_mem]
  rfl

end Written

end Rollup.Table

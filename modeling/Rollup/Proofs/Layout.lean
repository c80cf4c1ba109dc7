import Mathlib.Data.List.Basic
import Rollup.Layout
import Rollup.Proofs.Dict

/-!
# Filling records by column

A filled cell is read back under its column, and filling one column leaves the others alone.

Results:

* `get_set`: one cell.
* `get_fill`: of several values for one column the last one counts.
* `get_fill_cases`: a cell after filling is what it was, or one of the filled cells.
* `get_fill_blank`: a cell of a record that starts out blank.
-/

namespace Rollup.Layout

variable {l : Layout}

/-! ## Positions of columns -/

theorem getElem?_of_index? {column : String} {i : Nat} (h : l.index? column = some i) :
    l.header[i]? = some column := by
  obtain ⟨q, hq, rfl⟩ := Option.map_eq_some_iff.mp h
  have mem := List.mem_reverse.mp (List.mem_of_find?_eq_some hq)
  have same : q.1 = column := by simpa using List.find?_some hq
  rw [List.mem_zipIdx_iff_getElem?.mp mem, same]

theorem exists_index? {column : String} (mem : column ∈ l.header) :
    ∃ i, l.index? column = some i := by
  obtain ⟨i, hi⟩ := List.getElem?_of_mem mem
  have found : (l.header.zipIdx.reverse.find? (·.1 == column)).isSome = true := by
    rw [List.find?_isSome]
    exact ⟨(column, i), List.mem_reverse.mpr (List.mem_zipIdx_iff_getElem?.mpr hi), by simp⟩
  obtain ⟨q, hq⟩ := Option.isSome_iff_exists.mp found
  exact ⟨q.2, by rw [index?, hq, Option.map_some]⟩

theorem index?_of_notMem {column : String} (h : column ∉ l.header) : l.index? column = none := by
  cases found : l.index? column with
  | none => rfl
  | some i => exact absurd (List.mem_of_getElem? (getElem?_of_index? found)) h

/-- In a header without duplicates a column is where its name stands. -/
theorem index?_of_getElem? (nodup : l.header.Nodup) {column : String} {i : Nat}
    (h : l.header[i]? = some column) : l.index? column = some i := by
  obtain ⟨j, hj⟩ := exists_index? (List.mem_of_getElem? h)
  have bound : j < l.header.length := (List.getElem?_eq_some_iff.mp (getElem?_of_index? hj)).1
  rw [hj, (List.getElem?_inj bound nodup).mp ((getElem?_of_index? hj).trans h.symm)]

theorem get_of_getElem? (nodup : l.header.Nodup) {i : Nat} {column value : String}
    {record : List String} (there : l.header[i]? = some column) (cell : record[i]? = some value) :
    l.get record column = value := by
  rw [get, index?_of_getElem? nodup there, Option.bind_some, cell, Option.getD_some]

theorem get_of_notMem {column : String} (h : column ∉ l.header) (record : List String) :
    l.get record column = "" := by
  rw [get, index?_of_notMem h]
  rfl

/-! ## Filling cells -/

@[simp] theorem length_blank : l.blank.length = l.header.length := by
  simp [blank]

@[simp] theorem get_blank (column : String) : l.get l.blank column = "" := by
  unfold get blank
  cases l.index? column with
  | none => rfl
  | some i =>
    rw [Option.bind_some, List.getElem?_map]
    cases l.header[i]? <;> rfl

@[simp] theorem length_set (column value : String) (record : List String) :
    (l.set column value record).length = record.length := by
  unfold set
  split
  · exact List.length_set
  · rfl

@[simp] theorem length_fill (cells : List (String × String)) : ∀ record : List String,
    (l.fill cells record).length = record.length := by
  induction cells with
  | nil => intro record; rfl
  | cons q cells ih =>
    intro record
    rw [fill, List.foldl_cons]
    exact (ih _).trans (length_set _ _ _)

/-- A filled cell is read back, and the cells in other columns stay. -/
theorem get_set {record : List String} (width : record.length = l.header.length)
    {column : String} (mem : column ∈ l.header) (c value : String) :
    l.get (l.set c value record) column = if c = column then value else l.get record column := by
  obtain ⟨i, hi⟩ := exists_index? mem
  have bound : i < record.length := by
    rw [width]
    exact (List.getElem?_eq_some_iff.mp (getElem?_of_index? hi)).1
  unfold get set
  rw [hi, Option.bind_some, Option.bind_some]
  by_cases same : c = column
  · rw [if_pos same, same, hi]
    dsimp only
    rw [List.getElem?_set_self bound, Option.getD_some]
  · rw [if_neg same]
    cases hj : l.index? c with
    | none => rfl
    | some j =>
      have apart : j ≠ i := by
        rintro rfl
        exact same (Option.some.inj ((getElem?_of_index? hj).symm.trans (getElem?_of_index? hi)))
      dsimp only
      rw [List.getElem?_set_ne apart]

/-- Of several values for one column the last one counts. -/
theorem get_fill {column : String} (mem : column ∈ l.header) (cells : List (String × String)) :
    ∀ record : List String, record.length = l.header.length →
      l.get (l.fill cells record) column =
        (cells.reverse.lookup column).getD (l.get record column) := by
  induction cells with
  | nil => intro record _; rfl
  | cons q cells ih =>
    intro record width
    rw [fill, List.foldl_cons]
    refine (ih _ (by rw [length_set, width])).trans ?_
    rw [get_set width mem, List.reverse_cons, List.lookup_append]
    cases cells.reverse.lookup column with
    | some v => rfl
    | none =>
      rw [Option.none_or, List.lookup_cons, List.lookup_nil]
      by_cases same : q.1 = column
      · rw [if_pos same, same, beq_self_eq_true]
        rfl
      · rw [if_neg same, beq_eq_false_iff_ne.mpr (Ne.symm same)]

/-- A cell after filling is what it was, or one of the filled cells. -/
theorem get_fill_cases {column : String} (mem : column ∈ l.header) (cells : List (String × String))
    {record : List String} (width : record.length = l.header.length) :
    column ∉ cells.map (·.1) ∧ l.get (l.fill cells record) column = l.get record column ∨
      (column, l.get (l.fill cells record) column) ∈ cells := by
  rw [get_fill mem cells record width]
  cases found : cells.reverse.lookup column with
  | some v => exact Or.inr (List.mem_reverse.mp (mem_of_lookup found))
  | none =>
    refine Or.inl ⟨fun known => ?_, rfl⟩
    have some : (cells.reverse.lookup column).isSome = true := by
      rw [lookup_isSome_iff_mem, List.map_reverse, List.mem_reverse]
      exact known
    rw [found] at some
    cases some

/-- Filling other columns leaves a cell alone. -/
theorem get_fill_of_notMem {column : String} {cells : List (String × String)}
    (absent : column ∉ cells.map (·.1)) {record : List String}
    (width : record.length = l.header.length) :
    l.get (l.fill cells record) column = l.get record column := by
  by_cases mem : column ∈ l.header
  · rcases get_fill_cases mem cells width with same | there
    · exact same.2
    · exact absurd (List.mem_map_of_mem there) absent
  · rw [get_of_notMem mem, get_of_notMem mem]

/-- A column of a filled blank record holds the one value that is filled in, if there is one. -/
theorem get_fill_blank {column : String} {cells : List (String × String)} (value : Option String)
    (header : value.isSome = true → column ∈ l.header)
    (cell : ∀ v, (column, v) ∈ cells ↔ value = some v) :
    l.get (l.fill cells l.blank) column = value.getD "" := by
  by_cases mem : column ∈ l.header
  · rcases get_fill_cases mem cells length_blank with ⟨absent, same⟩ | there
    · have unset : value = none := by
        cases found : value with
        | none => rfl
        | some v => exact absurd (List.mem_map_of_mem ((cell v).mpr found)) absent
      rw [same, get_blank, unset, Option.getD_none]
    · rw [(cell _).mp there, Option.getD_some]
  · rw [get_of_notMem mem]
    cases found : value with
    | none => rfl
    | some v => exact absurd (header (by rw [found]; rfl)) mem

end Rollup.Layout

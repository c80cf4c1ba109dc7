import Mathlib.Data.List.Basic
import Mathlib.Data.List.TakeWhile
import Rollup.Proofs.Text.Slug
import Rollup.Table
import Rollup.Text.Runs

/-!
# Several values in one text

Trimmed values that are joined by a separator make a trimmed text, and splitting it gives the values
back. Only a single empty value is lost: the text is then blank and has no parts.

Results:

* `trim_join`: the joined text is trimmed.
* `split_join_iff`: the values are read back iff none contains the separator.
* `valuesOf_join`: the values are read back.
-/

namespace Rollup

namespace Text

/-- A text of blanks is trimmed to nothing. -/
theorem trim_of_isAllBlank {s : String} (h : isAllBlank s = true) : trim s = "" := by
  have none : s.toList.dropWhile isBlank = [] := by
    rw [List.dropWhile_eq_nil_iff]
    simpa [isAllBlank] using h
  rw [trim, trimChars, none]
  rfl

/-- Only a text of blanks is trimmed to nothing. -/
theorem isAllBlank_of_trim {s : String} (h : trim s = "") : isAllBlank s = true := by
  have none : trimEndChars (s.toList.dropWhile isBlank) = [] := by
    rw [← show (trim s).toList = trimEndChars (s.toList.dropWhile isBlank) from toList_trim s, h]
    rfl
  -- what is left at the front would start with a character that is not blank
  have blank : ∀ c ∈ s.toList.dropWhile isBlank, isBlank c = true := by
    rw [trimEndChars, List.reverse_eq_nil_iff, List.dropWhile_eq_nil_iff] at none
    simpa using none
  have front : s.toList.dropWhile isBlank = [] := by
    cases left : s.toList.dropWhile isBlank with
    | nil => rfl
    | cons c rest =>
      have filled := head?_dropWhile_not_blank s.toList c (by rw [left]; rfl)
      rw [blank c (by rw [left]; exact List.mem_cons_self)] at filled
      cases filled
  rw [List.dropWhile_eq_nil_iff] at front
  simpa [isAllBlank] using front

/-- A text of blanks is the one whose compared form is empty. -/
theorem isAllBlank_iff_upper_trim {s : String} : isAllBlank s = true ↔ upper (trim s) = "" := by
  rw [upper_eq_empty_iff]
  exact ⟨trim_of_isAllBlank, isAllBlank_of_trim⟩

/-- The ends of a trimmed text are not blank. -/
theorem ends_of_trimmed {s : String} (trimmed : trim s = s) :
    (∀ c ∈ s.toList.head?, isBlank c = false) ∧ ∀ c ∈ s.toList.getLast?, isBlank c = false := by
  have chars : trimChars s.toList = s.toList := by rw [← toList_trim, trimmed]
  rw [← chars]
  exact ⟨head?_trimChars s.toList, getLast?_trimChars s.toList⟩

section Join

variable {separator : Char} (solid : isBlank separator = false) {parts : List String}
  (trimmed : ∀ part ∈ parts, trim part = part)

include solid trimmed

theorem head?_join : ∀ c ∈ (join (String.singleton separator) parts).toList.head?,
    isBlank c = false := by
  rw [toList_join, String.toList_singleton]
  cases parts with
  | nil => simp
  | cons part parts =>
    have first := (ends_of_trimmed (trimmed part (by simp))).1
    cases parts with
    | nil => simpa using first
    | cons next parts =>
      rw [List.map_cons, List.map_cons, List.intercalate_cons_cons, List.append_assoc,
        List.head?_append]
      intro c hc
      cases start : part.toList.head? with
      | none =>
        rw [start] at hc
        cases hc
        exact solid
      | some d =>
        rw [start] at hc
        cases hc
        exact first c start

theorem getLast?_join : ∀ c ∈ (join (String.singleton separator) parts).toList.getLast?,
    isBlank c = false := by
  rw [toList_join, String.toList_singleton]
  induction parts with
  | nil => simp
  | cons part parts ih =>
    have last := (ends_of_trimmed (trimmed part (by simp))).2
    have rest := ih fun p hp => trimmed p (by simp [hp])
    cases parts with
    | nil => simpa using last
    | cons next parts =>
      rw [List.map_cons, List.map_cons, List.intercalate_cons_cons, List.append_assoc,
        List.getLast?_append]
      rw [List.map_cons] at rest
      intro c hc
      rw [List.getLast?_append] at hc
      cases stop : ([separator].intercalate (next.toList :: parts.map String.toList)).getLast? with
      | none =>
        rw [stop] at hc
        cases hc
        exact solid
      | some d =>
        rw [stop] at hc
        cases hc
        exact rest c stop

/-- Trimmed texts joined by a separator that is not blank make a trimmed text. -/
theorem trim_join : trim (join (String.singleton separator) parts) =
    join (String.singleton separator) parts := by
  rw [trim, trimChars_eq_self (head?_join solid trimmed) (getLast?_join solid trimmed),
    String.ofList_toList]

end Join

theorem split_join {separator : Char} {parts : List String}
    (free : ∀ part ∈ parts, separator ∉ part.toList) (some : parts ≠ []) :
    split separator (join (String.singleton separator) parts) = parts := by
  rw [split, toList_join, String.toList_singleton,
    List.splitOn_intercalate _ (by simpa using free) (by simpa using some), List.map_map]
  simp [Function.comp_def]

theorem notMem_of_mem_splitOn {α : Type} [DecidableEq α] {separator : α} {xs part : List α}
    (mem : part ∈ xs.splitOn separator) : separator ∉ part := by
  induction xs generalizing part with
  | nil =>
    rw [List.splitOn_nil, List.mem_singleton] at mem
    simp [mem]
  | cons x xs ih =>
    rw [List.splitOn_cons_eq_if_modifyHead] at mem
    split_ifs at mem with here
    · rcases List.mem_cons.mp mem with rfl | mem
      · simp
      · exact ih mem
    · -- the character is the first one of the first part
      obtain ⟨first, rest, parts⟩ := List.exists_cons_of_ne_nil (List.splitOn_ne_nil separator xs)
      rw [parts, List.modifyHead_cons] at mem
      rcases List.mem_cons.mp mem with rfl | mem
      · have apart : separator ≠ x := fun same => here (beq_iff_eq.mpr same.symm)
        exact List.not_mem_cons_of_ne_of_not_mem apart (ih (parts ▸ List.mem_cons_self))
      · exact ih (parts ▸ List.mem_cons_of_mem _ mem)

/-- The parts of a text do not contain the separator. -/
theorem notMem_of_mem_split {separator : Char} {s part : String} (mem : part ∈ split separator s) :
    separator ∉ part.toList := by
  obtain ⟨cs, hcs, rfl⟩ := List.mem_map.mp mem
  rw [String.toList_ofList]
  exact notMem_of_mem_splitOn hcs

theorem notMem_trim {c : Char} {s : String} (h : c ∉ s.toList) : c ∉ (trim s).toList := by
  intro mem
  rw [toList_trim, trimChars, trimEndChars, List.mem_reverse] at mem
  have back := (List.dropWhile_sublist _).subset mem
  exact h ((List.dropWhile_sublist _).subset (List.mem_reverse.mp back))

/-- Trimmed texts that are joined are read back iff none of them contains the separator. -/
theorem split_join_iff {separator : Char} {parts : List String}
    (trimmed : ∀ part ∈ parts, trim part = part) (some : parts ≠ []) :
    (split separator (join (String.singleton separator) parts)).map trim = parts ↔
      ∀ part ∈ parts, separator ∉ part.toList := by
  constructor
  · intro same part hpart
    rw [← same] at hpart
    obtain ⟨piece, hpiece, rfl⟩ := List.mem_map.mp hpart
    exact notMem_trim (notMem_of_mem_split hpiece)
  · intro free
    rw [split_join free some]
    exact (List.map_congr_left trimmed).trans (List.map_id _)

end Text

/-! ## The values of a cell -/

/-- The values of a cell that holds several. -/
def valuesOf (raw : String) : List String :=
  match Table.nonBlank? raw with
  | none => []
  | some text => (Text.split Column.valueSeparator text).map Text.trim

theorem valuesOf_empty : valuesOf "" = [] := by
  have blank : Table.nonBlank? "" = none := by rfl
  rw [valuesOf, blank]

/-- Joined values are read back, unless the text is empty. -/
theorem valuesOf_join {parts : List String}
    (values : ∀ part ∈ parts, Text.trim part = part ∧ Column.valueSeparator ∉ part.toList)
    (filled : Text.join (String.singleton Column.valueSeparator) parts ≠ "") :
    valuesOf (Text.join (String.singleton Column.valueSeparator) parts) = parts := by
  have trimmed : Text.trim (Text.join (String.singleton Column.valueSeparator) parts) = _ :=
    Text.trim_join (by decide) fun part hpart => (values part hpart).1
  have text : Table.nonBlank? (Text.join (String.singleton Column.valueSeparator) parts) =
      some (Text.join (String.singleton Column.valueSeparator) parts) := by
    rw [Table.nonBlank?, trimmed]
    exact if_neg filled
  have some : parts ≠ [] := by
    rintro rfl
    exact filled rfl
  rw [valuesOf, text]
  dsimp only
  rw [Text.split_join (fun part hpart => (values part hpart).2) some]
  exact (List.map_congr_left fun part hpart => (values part hpart).1).trans (List.map_id _)

/-- Values that are not all empty, or several values, make a text that is not empty. -/
theorem join_ne_empty {parts : List String} {part : String} (mem : part ∈ parts)
    (filled : part ≠ "" ∨ 1 < parts.length) :
    Text.join (String.singleton Column.valueSeparator) parts ≠ "" := by
  intro empty
  have chars : [Column.valueSeparator].intercalate (parts.map String.toList) = [] := by
    rw [← String.toList_singleton, ← Text.toList_join, empty]
    rfl
  cases parts with
  | nil => cases mem
  | cons first parts =>
    cases parts with
    | nil =>
      rw [List.mem_singleton] at mem
      rw [List.map_singleton, List.intercalate_singleton] at chars
      rcases filled with filled | filled
      · refine filled (mem.trans (String.toList_inj.mp ?_))
        exact chars
      · simp at filled
    | cons second parts =>
      rw [List.map_cons, List.map_cons, List.intercalate_cons_cons] at chars
      simp at chars

end Rollup

import Rollup.Text.CodePoints

/-!
# Blank characters and trimming

A character is blank when it has the property White_Space. Cells, names and keys are compared
after the blanks at both ends are cut off.

Results:

* `trim_trim`: trimming twice is trimming once.
* `trimChars_eq_self`: a list whose two ends are not blank is left alone.
-/

namespace Rollup.Text

/-- Code points with the property White_Space. -/
def blankRanges : CodePoints :=
  [(0x9, 0xD), (0x20, 0x20), (0x85, 0x85), (0xA0, 0xA0), (0x1680, 0x1680), (0x2000, 0x200A),
   (0x2028, 0x2029), (0x202F, 0x202F), (0x205F, 0x205F), (0x3000, 0x3000)]

/-- Whether `c` is a blank. -/
def isBlank (c : Char) : Bool :=
  blankRanges.holds c.toNat

/-! ## Trimming -/

/-- `cs` without the blanks at its end. -/
def trimEndChars (cs : List Char) : List Char :=
  (cs.reverse.dropWhile isBlank).reverse

/-- `cs` without the blanks at its two ends. -/
def trimChars (cs : List Char) : List Char :=
  trimEndChars (cs.dropWhile isBlank)

/-- `s` without the blanks at its two ends. -/
def trim (s : String) : String :=
  String.ofList (trimChars s.toList)

/-- Whether `s` consists of blanks only. -/
def isAllBlank (s : String) : Bool :=
  s.toList.all isBlank

/-! ## Laws of trimming -/

@[simp] theorem toList_trim (s : String) : (trim s).toList = trimChars s.toList := by
  simp [trim]

theorem dropWhile_eq_self_of_head {cs : List Char} (h : ∀ c ∈ cs.head?, isBlank c = false) :
    cs.dropWhile isBlank = cs := by
  cases cs with
  | nil => rfl
  | cons c rest => simp [List.dropWhile, h c (by simp)]

theorem head?_dropWhile_not_blank (cs : List Char) :
    ∀ c ∈ (cs.dropWhile isBlank).head?, isBlank c = false := by
  induction cs with
  | nil => simp
  | cons a rest ih =>
    rw [List.dropWhile_cons]
    split
    · exact ih
    · intro c hc
      simp only [List.head?_cons, Option.mem_def, Option.some.injEq] at hc
      subst hc
      simp_all

/-- The last character of a list trimmed at its end is not blank. -/
theorem getLast?_trimEndChars (cs : List Char) :
    ∀ c ∈ (trimEndChars cs).getLast?, isBlank c = false := by
  intro c hc
  rw [trimEndChars, List.getLast?_reverse] at hc
  exact head?_dropWhile_not_blank _ c hc

theorem trimEndChars_eq_self {cs : List Char} (h : ∀ c ∈ cs.getLast?, isBlank c = false) :
    trimEndChars cs = cs := by
  rw [trimEndChars, dropWhile_eq_self_of_head, List.reverse_reverse]
  simpa [List.head?_reverse] using h

/-- What is cut off at the end is blank, and the rest is a leading part of the list. -/
theorem trimEndChars_append_takeWhile (cs : List Char) :
    trimEndChars cs ++ (cs.reverse.takeWhile isBlank).reverse = cs := by
  rw [trimEndChars, ← List.reverse_append, List.takeWhile_append_dropWhile, List.reverse_reverse]

theorem head?_trimEndChars {cs : List Char} {c : Char} (h : c ∈ (trimEndChars cs).head?) :
    c ∈ cs.head? := by
  have split := trimEndChars_append_takeWhile cs
  cases e : trimEndChars cs with
  | nil => simp [e] at h
  | cons a rest =>
    rw [e] at h split
    rw [← split]
    simpa using h

theorem trimChars_eq_self {cs : List Char} (first : ∀ c ∈ cs.head?, isBlank c = false)
    (last : ∀ c ∈ cs.getLast?, isBlank c = false) : trimChars cs = cs := by
  rw [trimChars, dropWhile_eq_self_of_head first, trimEndChars_eq_self last]

theorem head?_trimChars (cs : List Char) : ∀ c ∈ (trimChars cs).head?, isBlank c = false := by
  intro c hc
  exact head?_dropWhile_not_blank cs c (head?_trimEndChars hc)

theorem getLast?_trimChars (cs : List Char) :
    ∀ c ∈ (trimChars cs).getLast?, isBlank c = false :=
  getLast?_trimEndChars _

@[simp] theorem trimChars_trimChars (cs : List Char) : trimChars (trimChars cs) = trimChars cs :=
  trimChars_eq_self (head?_trimChars cs) (getLast?_trimChars cs)

@[simp] theorem trim_trim (s : String) : trim (trim s) = trim s := by
  simp [trim]

end Rollup.Text

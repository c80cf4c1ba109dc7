import Mathlib.Data.List.Basic
import Mathlib.Data.List.TakeWhile
import Mathlib.Tactic.SplitIfs
import Rollup.Text.Blank
import Rollup.Text.Slug

/-!
# Slugs

Upper-casing neither makes a blank nor removes one, so it can be exchanged with trimming. Letters and
numbers are not blank. So a slug, which has only the upper-case forms of these and underscores, is
left alone by trimming. It is empty if the name has none of them.

Results:

* `cases_of_mem_upperChar`: where the characters of an upper-case form come from.
* `isBlank_upperChar`: the upper-case form of a character is blank if the character is.
* `trim_upper`: trimming and upper-casing in either order.
* `solid_slug`, `solid_slugPath`: slugs have no blanks.
* `slug_eq_empty_iff`, `slugPath_eq_empty_iff`: what has no slug.
-/

namespace Rollup.Text

/-! ## Tables -/

/-- Whether no code point is in both sets. -/
def CodePoints.apart (a b : CodePoints) : Bool :=
  a.all fun r => b.all fun q => r.2 < q.1 || q.2 < r.1

theorem CodePoints.holds_eq_false_of_apart {a b : CodePoints} (h : a.apart b = true) {n : Nat}
    (mem : a.holds n = true) : b.holds n = false := by
  obtain ⟨r, hr, h1, h2⟩ := (a.holds_iff n).mp mem
  rw [Bool.eq_false_iff]
  intro mem'
  obtain ⟨q, hq, h3, h4⟩ := (b.holds_iff n).mp mem'
  have := List.all_eq_true.mp (List.all_eq_true.mp h r hr) q hq
  simp only [Bool.or_eq_true, decide_eq_true_eq] at this
  omega

theorem words_apart : alphabeticRanges.apart blankRanges = true ∧
    decimalRanges.apart blankRanges = true ∧ otherNumberRanges.apart blankRanges = true := by
  refine ⟨?_, ?_, ?_⟩ <;> decide +kernel

/-- A run holds no blank, and carries no code point to a blank. -/
theorem upperRuns_apart : ∀ r ∈ upperRuns, ∀ q ∈ blankRanges, (r.last < q.1 ∨ q.2 < r.first) ∧
    ((r.last : Int) + r.delta < q.1 ∨ (q.2 : Int) < r.first + r.delta) := by
  decide +kernel

theorem upperExpansions_apart : ∀ p ∈ upperExpansions, blankRanges.holds p.1 = false ∧
    p.2 ≠ [] ∧ ∀ n ∈ p.2, isBlank (Char.ofNat n) = false := by
  decide

/-- What holds of all characters of ASCII can be checked one by one. -/
theorem forall_ascii {P : Char → Prop} (each : ∀ n < 0x80, P (Char.ofNat n)) (c : Char)
    (ascii : c.toNat < 0x80) : P c := by
  have own := each c.toNat ascii
  rwa [Char.ofNat_toNat] at own

theorem ascii_apart : ∀ c : Char, c.toNat < 0x80 → isBlank c.toUpper = isBlank c ∧
    (isLetterOrNumber c = true → isBlank c = false) :=
  forall_ascii (by decide +kernel)

/-! ## Characters -/

/-- A number outside the code points stands for the null character. -/
theorem toNat_ofNat_or (n : Nat) : (Char.ofNat n).toNat = n ∨ Char.ofNat n = '\x00' := by
  by_cases valid : n.isValidChar
  · rw [Char.ofNat, dif_pos valid]
    exact Or.inl rfl
  · rw [Char.ofNat, dif_neg valid]
    exact Or.inr rfl

theorem lt_of_toNat_ofNat_lt {n : Nat} (ascii : (Char.ofNat n).toNat < 0x80)
    (proper : (Char.ofNat n).toNat ≠ 0) : n < 0x80 := by
  rcases toNat_ofNat_or n with code | null
  · rwa [code] at ascii
  · rw [null] at proper
    exact absurd rfl proper

theorem isBlank_ofNat {n : Nat} (h : blankRanges.holds n = false) :
    isBlank (Char.ofNat n) = false := by
  rcases toNat_ofNat_or n with code | null
  · rwa [isBlank, code]
  · rw [null]
    decide

theorem isBlank_of_letterOrNumber {c : Char} (h : isLetterOrNumber c = true) :
    isBlank c = false := by
  by_cases ascii : c.toNat < 0x80
  · exact (ascii_apart c ascii).2 h
  · rw [isLetterOrNumber, isLetter, if_neg ascii, Bool.or_eq_true, Bool.or_eq_true] at h
    rcases h with (h | h) | h
    · exact CodePoints.holds_eq_false_of_apart words_apart.1 h
    · exact CodePoints.holds_eq_false_of_apart words_apart.2.1 h
    · exact CodePoints.holds_eq_false_of_apart words_apart.2.2 h

theorem CaseRun.image?_eq_some_iff {r : CaseRun} {n m : Nat} : r.image? n = some m ↔
    (r.first ≤ n ∧ n ≤ r.last ∧ (n - r.first) % r.step = 0) ∧
      ((n : Int) + r.delta).toNat = m := by
  rw [CaseRun.image?, Option.ite_none_right_eq_some, Option.some.injEq]

/-- A run moves no blank, and carries no code point to one. -/
theorem holds_image {r : CaseRun} (hr : r ∈ upperRuns) {n m : Nat} (h : r.image? n = some m) :
    blankRanges.holds n = false ∧ blankRanges.holds m = false := by
  obtain ⟨inside, rfl⟩ := CaseRun.image?_eq_some_iff.mp h
  rw [Bool.eq_false_iff, Bool.eq_false_iff]
  constructor
  · intro mem
    obtain ⟨q, hq, h1, h2⟩ := (blankRanges.holds_iff _).mp mem
    have := (upperRuns_apart r hr q hq).1
    omega
  · intro mem
    obtain ⟨q, hq, h1, h2⟩ := (blankRanges.holds_iff _).mp mem
    have positive : ∀ q ∈ blankRanges, 0 < q.1 := by decide
    have low := positive q hq
    have := (upperRuns_apart r hr q hq).2
    omega

/-- A character of an upper-case form comes from ASCII, from an expansion or from a run, or is the
    character itself, which then has no other form. -/
theorem cases_of_mem_upperChar {c u : Char} (mem : u ∈ upperChar c) :
    (c.toNat < 0x80 ∧ u = c.toUpper) ∨
    (∃ p ∈ upperExpansions, p.1 = c.toNat ∧ ∃ n ∈ p.2, u = Char.ofNat n) ∨
    (∃ r ∈ upperRuns, ∃ m, r.image? c.toNat = some m ∧ u = Char.ofNat m) ∨
    upperChar c = [c] ∧ u = c := by
  unfold upperChar at mem
  split_ifs at mem with ascii
  · exact Or.inl ⟨ascii, List.mem_singleton.mp mem⟩
  · cases found : upperExpansions.lookup c.toNat with
    | some codes =>
      rw [found] at mem
      obtain ⟨l₁, l₂, split, -⟩ := List.lookup_eq_some_iff.mp found
      obtain ⟨n, hn, rfl⟩ := List.mem_map.mp mem
      exact Or.inr (Or.inl ⟨(c.toNat, codes), by rw [split]; simp, rfl, n, hn, rfl⟩)
    | none =>
      rw [found, List.mem_singleton, moveBy] at mem
      cases image : upperRuns.findSome? (·.image? c.toNat) with
      | none =>
        rw [image, Option.getD_none, Char.ofNat_toNat] at mem
        have own : upperChar c = [c] := by
          rw [upperChar, if_neg ascii, found, moveBy, image, Option.getD_none, Char.ofNat_toNat]
        exact Or.inr (Or.inr (Or.inr ⟨own, mem⟩))
      | some m =>
        obtain ⟨r, hr, hm⟩ := List.exists_of_findSome?_eq_some image
        rw [image, Option.getD_some] at mem
        exact Or.inr (Or.inr (Or.inl ⟨r, hr, m, hm, mem⟩))

theorem upperChar_ne_nil (c : Char) : upperChar c ≠ [] := by
  unfold upperChar
  split_ifs
  · simp
  · cases found : upperExpansions.lookup c.toNat with
    | none => simp
    | some codes =>
      obtain ⟨l₁, l₂, split, -⟩ := List.lookup_eq_some_iff.mp found
      have filled := (upperExpansions_apart (c.toNat, codes) (by rw [split]; simp)).2.1
      simpa using filled

/-- The upper-case form of a character is blank if the character is, and it is never empty. -/
theorem isBlank_upperChar (c : Char) :
    upperChar c ≠ [] ∧ ∀ u ∈ upperChar c, isBlank u = isBlank c := by
  refine ⟨upperChar_ne_nil c, fun u hu => ?_⟩
  rcases cases_of_mem_upperChar hu with ⟨ascii, rfl⟩ | ⟨p, hp, code, n, hn, rfl⟩ |
    ⟨r, hr, m, hm, rfl⟩ | ⟨-, rfl⟩
  · exact (ascii_apart c ascii).1
  · obtain ⟨own, -, apart⟩ := upperExpansions_apart p hp
    rw [code] at own
    exact (apart n hn).trans own.symm
  · obtain ⟨own, moved⟩ := holds_image hr hm
    exact (isBlank_ofNat moved).trans own.symm
  · rfl

/-! ## Trimming and upper-casing -/

/-- The blanks at the start of a text, if every character is replaced by several that are blank if
    the character is. -/
theorem dropWhile_flatMap {f : Char → List Char}
    (keeps : ∀ c, f c ≠ [] ∧ ∀ u ∈ f c, isBlank u = isBlank c) (cs : List Char) :
    (cs.flatMap f).dropWhile isBlank = (cs.dropWhile isBlank).flatMap f := by
  induction cs with
  | nil => rfl
  | cons c cs ih =>
    obtain ⟨filled, same⟩ := keeps c
    rw [List.flatMap_cons, List.dropWhile_append, List.dropWhile_cons]
    cases blank : isBlank c with
    | true =>
      rw [blank] at same
      rw [if_pos rfl, List.dropWhile_eq_nil_iff.mpr same, List.isEmpty_nil, if_pos rfl, ih]
    | false =>
      obtain ⟨u, us, form⟩ := List.exists_cons_of_ne_nil filled
      have first : isBlank u = false := (same u (by simp [form])).trans blank
      simp [form, first]

theorem trimChars_flatMap {f : Char → List Char}
    (keeps : ∀ c, f c ≠ [] ∧ ∀ u ∈ f c, isBlank u = isBlank c) (cs : List Char) :
    trimChars (cs.flatMap f) = (trimChars cs).flatMap f := by
  have mirrored : ∀ c, (List.reverse ∘ f) c ≠ [] ∧
      ∀ u ∈ (List.reverse ∘ f) c, isBlank u = isBlank c := by
    simpa using keeps
  rw [trimChars, trimChars, dropWhile_flatMap keeps, trimEndChars, trimEndChars,
    List.reverse_flatMap, dropWhile_flatMap mirrored, List.reverse_flatMap]
  simp [Function.comp_def]

/-- Trimming and upper-casing in either order. -/
theorem trim_upper (s : String) : trim (upper s) = upper (trim s) := by
  rw [← String.toList_inj, toList_trim, toList_upper, toList_upper, toList_trim,
    trimChars_flatMap isBlank_upperChar]

/-! ## Slugs -/

theorem mem_runsFrom {keep : Char → Bool} (cs : List Char) : ∀ (run : List Char),
    (∀ c ∈ run, keep c = true) → ∀ r ∈ runsFrom keep run cs, ∀ c ∈ r, keep c = true := by
  induction cs with
  | nil =>
    intro run kept r hr c hc
    cases run with
    | nil => cases hr
    | cons a run =>
      rw [runsFrom, List.mem_singleton] at hr
      subst hr
      exact kept c (List.mem_reverse.mp hc)
  | cons a cs ih =>
    intro run kept r hr
    cases run with
    | nil =>
      rw [runsFrom] at hr
      split_ifs at hr with ha
      · exact ih [a] (by simpa using ha) r hr
      · exact ih [] (by simp) r hr
    | cons b run =>
      rw [runsFrom] at hr
      split_ifs at hr with ha
      · refine ih (a :: b :: run) ?_ r hr
        intro c hc
        rcases List.mem_cons.mp hc with rfl | hc
        · exact ha
        · exact kept c hc
      · rcases List.mem_cons.mp hr with rfl | hr
        · intro c hc
          exact kept c (List.mem_reverse.mp hc)
        · exact ih [] (by simp) r hr

theorem mem_intercalate {α : Type} {separator : List α} {parts : List (List α)} {a : α}
    (h : a ∈ separator.intercalate parts) : a ∈ separator ∨ ∃ part ∈ parts, a ∈ part := by
  induction parts with
  | nil => simp [List.intercalate] at h
  | cons part parts ih =>
    cases parts with
    | nil => exact Or.inr ⟨part, by simp, by simpa [List.intercalate] using h⟩
    | cons next parts =>
      rw [List.intercalate, List.intersperse_cons_cons, List.flatten_cons, List.flatten_cons,
        List.mem_append, List.mem_append] at h
      rcases h with h | h | h
      · exact Or.inr ⟨part, by simp, h⟩
      · exact Or.inl h
      · rcases ih h with h | ⟨q, hq, h⟩
        · exact Or.inl h
        · exact Or.inr ⟨q, List.mem_cons_of_mem _ hq, h⟩

/-- A text without blanks. -/
def Solid (s : String) : Prop :=
  ∀ c ∈ s.toList, isBlank c = false

theorem solid_of_all {s : String} (h : (s.toList.all fun c => !isBlank c) = true) : Solid s := by
  intro c hc
  simpa using List.all_eq_true.mp h c hc

theorem trim_of_solid {s : String} (h : Solid s) : trim s = s := by
  rw [trim, trimChars_eq_self, String.ofList_toList]
  · intro c hc
    exact h c (List.mem_of_mem_head? hc)
  · intro c hc
    exact h c (List.mem_of_mem_getLast? hc)

theorem solid_join {separator : String} {parts : List String} (hs : Solid separator)
    (hp : ∀ part ∈ parts, Solid part) : Solid (join separator parts) := by
  intro c hc
  rw [toList_join] at hc
  rcases mem_intercalate hc with hc | ⟨cs, hcs, hc⟩
  · exact hs c hc
  · obtain ⟨part, hpart, rfl⟩ := List.mem_map.mp hcs
    exact hp part hpart c hc

theorem solid_append {s t : String} (hs : Solid s) (ht : Solid t) : Solid (s ++ t) := by
  intro c hc
  rw [String.toList_append, List.mem_append] at hc
  rcases hc with hc | hc
  · exact hs c hc
  · exact ht c hc

theorem solid_slug (name : String) : Solid (slug name) := by
  refine solid_join (solid_of_all (by decide)) ?_
  intro part hpart
  obtain ⟨run, hrun, rfl⟩ := List.mem_map.mp hpart
  intro u hu
  rw [String.toList_ofList, List.mem_flatMap] at hu
  obtain ⟨c, hc, hu⟩ := hu
  have kept := mem_runsFrom _ [] (by simp) run hrun c hc
  exact ((isBlank_upperChar c).2 u hu).trans (isBlank_of_letterOrNumber kept)

theorem solid_slugPath (path : List String) : Solid (slugPath path) := by
  refine solid_join (solid_of_all (by decide)) ?_
  intro part hpart
  obtain ⟨name, -, rfl⟩ := List.mem_map.mp (List.mem_of_mem_filter hpart)
  exact solid_slug name

/-! ## Names without a slug -/

theorem upper_eq_empty_iff {s : String} : upper s = "" ↔ s = "" := by
  rw [← String.toList_inj, toList_upper, ← String.toList_inj]
  cases s.toList with
  | nil => simp
  | cons c rest => simp [(isBlank_upperChar c).1]

/-- Runs are not empty, and there is one as soon as some character is kept. -/
theorem runsFrom_filled (keep : Char → Bool) (cs : List Char) : ∀ run : List Char,
    (∀ r ∈ runsFrom keep run cs, r ≠ []) ∧
      (runsFrom keep run cs = [] ↔ run = [] ∧ ∀ c ∈ cs, keep c = false) := by
  induction cs with
  | nil =>
    intro run
    cases run with
    | nil => simp [runsFrom]
    | cons a run => simp [runsFrom]
  | cons a cs ih =>
    intro run
    cases run with
    | nil =>
      rw [runsFrom]
      split_ifs with ha
      · refine ⟨(ih [a]).1, ?_⟩
        rw [(ih [a]).2]
        simp [ha]
      · refine ⟨(ih []).1, ?_⟩
        rw [(ih []).2]
        simp [ha]
    | cons b run =>
      rw [runsFrom]
      split_ifs with ha
      · refine ⟨(ih (a :: b :: run)).1, ?_⟩
        rw [(ih (a :: b :: run)).2]
        simp
      · refine ⟨?_, by simp⟩
        intro r hr
        rcases List.mem_cons.mp hr with rfl | hr
        · simp
        · exact (ih []).1 r hr

theorem join_eq_empty_iff {separator : String} {parts : List String}
    (filled : ∀ part ∈ parts, part ≠ "") : join separator parts = "" ↔ parts = [] := by
  constructor
  · intro empty
    cases parts with
    | nil => rfl
    | cons part parts =>
      have chars : (join separator (part :: parts)).toList = [] := by
        rw [empty]
        rfl
      have own : part.toList ≠ [] := by
        simpa using filled part (by simp)
      rw [toList_join, List.map_cons] at chars
      cases parts with
      | nil =>
        rw [List.map_nil, List.intercalate_singleton] at chars
        exact absurd chars own
      | cons next parts =>
        rw [List.map_cons, List.intercalate_cons_cons, List.append_eq_nil_iff] at chars
        exact absurd (List.append_eq_nil_iff.mp chars.1).1 own
  · rintro rfl
    rfl

/-- The names without a slug are those without a letter or a number. -/
theorem slug_eq_empty_iff {name : String} :
    slug name = "" ↔ ∀ c ∈ name.toList, isLetterOrNumber c = false := by
  obtain ⟨filled, empty⟩ := runsFrom_filled isLetterOrNumber name.toList []
  rw [slug, join_eq_empty_iff, List.map_eq_nil_iff, runs, empty, and_iff_right rfl]
  intro part hpart
  obtain ⟨run, hrun, rfl⟩ := List.mem_map.mp hpart
  obtain ⟨c, rest, rfl⟩ := List.exists_cons_of_ne_nil (filled run hrun)
  obtain ⟨u, us, upper⟩ := List.exists_cons_of_ne_nil ((isBlank_upperChar c).1)
  simp [upper]

theorem slugPath_eq_empty_iff {path : List String} :
    slugPath path = "" ↔ ∀ step ∈ path, ∀ c ∈ step.toList, isLetterOrNumber c = false := by
  rw [slugPath, join_eq_empty_iff (by simp), List.filter_eq_nil_iff, List.forall_mem_map]
  simp only [decide_eq_true_eq, ne_eq, not_not, slug_eq_empty_iff]

end Rollup.Text

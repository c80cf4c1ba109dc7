import Mathlib.Data.List.Basic
import Rollup.Proofs.Column
import Rollup.Proofs.Text.Slug
import Rollup.Text.Case

/-!
# Case folding of words

Case folding joins a capital with its small letter, and two of the capitals with one more character
each: `S` with the long s, and `K` with the Kelvin sign. The long s has the capital `S` as its
upper-case form, but the Kelvin sign is its own.

Results:

* `upperChar_toLower`: the upper-case form does not depend on the case of an ASCII letter.
* `cases_of_foldChar`: the characters that fold to a capital or a digit.
* `upperChar_of_foldChar`: the upper-case form of such a character.
* `isSeparator_of_foldChar`: it is no separator.
* `afterFolded?_eq_some_iff`: what stands before the rest of a folded word.
-/

namespace Rollup.Text

/-- The sign for the unit of temperature, which folds to a small k. -/
def kelvin : Char := '\u212A'

/-! ## Tables -/

/-- Only two runs outside ASCII lead into it. -/
theorem foldRuns_outside : ∀ r ∈ foldRuns, (0x80 : Int) ≤ r.first + r.delta ∨
    r = ⟨0x17F, 0x17F, 1, -268⟩ ∨ r = ⟨0x212A, 0x212A, 1, -8383⟩ := by
  set_option maxRecDepth 2000 in
  decide

theorem toLower_ascii : ∀ c : Char, c.toNat < 0x80 → c.toLower.toUpper = c.toUpper ∧
    c.toLower.toNat < 0x80 ∧ (0 < c.toNat → c.toLower.toNat ≠ 0) :=
  forall_ascii (by decide)

theorem isSeparator_ascii : ∀ c : Char, c.toNat < 0x80 →
    Column.isWordChar c.toUpper = true → Column.isSeparator c = false :=
  forall_ascii (by decide)

/-! ## Characters -/

theorem toLower_of_not_ascii {c : Char} (h : ¬ c.toNat < 0x80) : c.toLower = c := by
  unfold Char.toLower
  rw [dif_neg]
  rintro ⟨-, bound⟩
  have : c.toNat ≤ 'Z'.toNat := bound
  exact h (this.trans_lt (by decide))

theorem upperChar_toLower (c : Char) : upperChar c.toLower = upperChar c := by
  by_cases ascii : c.toNat < 0x80
  · obtain ⟨upper, lower, -⟩ := toLower_ascii c ascii
    rw [upperChar, upperChar, if_pos lower, if_pos ascii, upper]
  · rw [toLower_of_not_ascii ascii]

/-- A character outside ASCII that folds into it is the long s or the Kelvin sign. -/
theorem eq_of_foldChar_lt {c : Char} (outside : ¬ c.toNat < 0x80) (low : (foldChar c).toNat < 0x80)
    (proper : (foldChar c).toNat ≠ 0) : c = 'ſ' ∨ c = kelvin := by
  rw [foldChar, if_neg outside, moveBy] at low proper
  have moved := lt_of_toNat_ofNat_lt low proper
  cases found : foldRuns.findSome? (·.image? c.toNat) with
  | none =>
    rw [found] at moved
    exact absurd moved outside
  | some m =>
    rw [found, Option.getD_some] at moved
    obtain ⟨r, hr, hm⟩ := List.exists_of_findSome?_eq_some found
    obtain ⟨inside, image⟩ := CaseRun.image?_eq_some_iff.mp hm
    have back : ∀ n : Nat, c.toNat = n → c = Char.ofNat n := fun n same =>
      same ▸ (Char.ofNat_toNat c).symm
    rcases foldRuns_outside r hr with high | rfl | rfl
    · omega
    · exact Or.inl (back 0x17F (Nat.le_antisymm inside.2.1 inside.1))
    · exact Or.inr (back 0x212A (Nat.le_antisymm inside.2.1 inside.1))

/-- The characters that fold to a capital or a digit. -/
theorem cases_of_foldChar {c u : Char} (word : Column.isWordChar u = true)
    (same : foldChar c = foldChar u) :
    c.toNat < 0x80 ∧ c.toUpper = u ∨ c = 'ſ' ∧ u = 'S' ∨ c = kelvin ∧ u = 'K' := by
  have range := Column.toNat_of_isWordChar word
  have ascii : u.toNat < 0x80 := by omega
  have capital : u.toUpper = u := by
    have upper := Column.upperChar_of_isWordChar word
    rwa [upperChar, if_pos ascii, List.cons.injEq, and_iff_left rfl] at upper
  obtain ⟨back, low, proper⟩ := toLower_ascii u ascii
  rw [capital] at back
  rw [show foldChar u = u.toLower from if_pos ascii] at same
  by_cases inside : c.toNat < 0x80
  · rw [foldChar, if_pos inside] at same
    have own := (toLower_ascii c inside).1
    rw [same, back] at own
    exact Or.inl ⟨inside, own.symm⟩
  · rw [← same] at low proper
    rcases eq_of_foldChar_lt inside low (proper (by omega)) with rfl | rfl
    · have folded : (foldChar 'ſ').toUpper = 'S' := by decide
      rw [same, back] at folded
      exact Or.inr (Or.inl ⟨rfl, folded⟩)
    · have folded : (foldChar kelvin).toUpper = 'K' := by decide
      rw [same, back] at folded
      exact Or.inr (Or.inr ⟨rfl, folded⟩)

/-- The upper-case form of a character that folds to a capital or a digit. -/
theorem upperChar_of_foldChar {c u : Char} (word : Column.isWordChar u = true)
    (same : foldChar c = foldChar u) (ne : c ≠ kelvin) : upperChar c = [u] := by
  rcases cases_of_foldChar word same with ⟨ascii, upper⟩ | ⟨rfl, rfl⟩ | ⟨rfl, -⟩
  · rw [upperChar, if_pos ascii, upper]
  · decide
  · exact absurd rfl ne

/-- A character that folds to a capital or a digit is no separator. -/
theorem isSeparator_of_foldChar {c u : Char} (word : Column.isWordChar u = true)
    (same : foldChar c = foldChar u) : Column.isSeparator c = false := by
  rcases cases_of_foldChar word same with ⟨ascii, rfl⟩ | ⟨rfl, -⟩ | ⟨rfl, -⟩
  · exact isSeparator_ascii c ascii word
  · decide
  · decide

/-! ## Words -/

/-- The texts are the same up to case folding. -/
def Folds (a b : List Char) : Prop :=
  List.Forall₂ (fun c u => foldChar c = foldChar u) a b

theorem exists_of_folds {w word : List Char} (folds : Folds w word) {c : Char} (mem : c ∈ w) :
    ∃ u ∈ word, foldChar c = foldChar u := by
  induction folds with
  | nil => cases mem
  | @cons d u w word same _ ih =>
    rcases List.mem_cons.mp mem with rfl | mem
    · exact ⟨u, by simp, same⟩
    · obtain ⟨v, hv, same⟩ := ih mem
      exact ⟨v, by simp [hv], same⟩

/-- The upper-case form of a text that folds to a word, unless it has the Kelvin sign. -/
theorem flatMap_upperChar_of_folds {w word : List Char} (folds : Folds w word)
    (all : ∀ u ∈ word, Column.isWordChar u = true) (unsigned : kelvin ∉ w) :
    w.flatMap upperChar = word := by
  induction folds with
  | nil => rfl
  | @cons c u w word same _ ih =>
    rw [List.mem_cons, not_or] at unsigned
    rw [List.flatMap_cons, upperChar_of_foldChar (all u (by simp)) same (Ne.symm unsigned.1),
      ih (fun v hv => all v (by simp [hv])) unsigned.2]
    rfl

/-- What stands before the rest of a folded word. -/
theorem afterFolded?_eq_some_iff {word cs rest : List Char} :
    afterFolded? word cs = some rest ↔ ∃ w, Folds w word ∧ cs = w ++ rest := by
  induction word generalizing cs with
  | nil =>
    rw [afterFolded?, Option.some.injEq]
    constructor
    · rintro rfl
      exact ⟨[], .nil, rfl⟩
    · rintro ⟨w, folds, rfl⟩
      cases folds
      rfl
  | cons u word ih =>
    cases cs with
    | nil =>
      rw [afterFolded?]
      constructor
      · intro none
        cases none
      · rintro ⟨w, folds, eq⟩
        cases folds
        cases eq
    | cons c cs =>
      rw [afterFolded?]
      constructor
      · intro read
        split at read
        · obtain ⟨w, folds, rfl⟩ := ih.mp read
          exact ⟨c :: w, .cons ‹_› folds, rfl⟩
        · cases read
      · rintro ⟨w, folds, eq⟩
        cases folds with
        | cons here folds =>
          rw [List.cons_append, List.cons.injEq] at eq
          obtain ⟨rfl, rfl⟩ := eq
          rw [if_pos here]
          exact ih.mpr ⟨_, folds, rfl⟩

end Rollup.Text

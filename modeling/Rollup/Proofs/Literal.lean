import Mathlib.Data.List.Basic
import Rollup.Literal
import Rollup.Operation
import Rollup.Proofs.Text.Slug

/-!
# Literals that have been written

The texts of integers, truth values and operations are read as what they were written for.

Results:

* `text?_of_numeral`: a numeral is a text.
* `readInt?_toString`, `int?_toString`: integers.
* `bool?_boolText`, `read?_keyword`: truth values and operations.
-/

namespace Rollup

/-! ## Numerals -/

/-- A text of digits, signs and points. -/
def Literal.Numeral (s : String) : Prop :=
  s.toList ≠ [] ∧ ∀ c ∈ s.toList, 45 ≤ c.toNat ∧ c.toNat ≤ 57

namespace Literal

theorem isBlank_of_numeral {c : Char} (h : 45 ≤ c.toNat ∧ c.toNat ≤ 57) :
    Text.isBlank c = false := by
  have all : ∀ n < 58, 45 ≤ n → Text.blankRanges.holds n = false := by decide
  exact all c.toNat (by omega) h.1

theorem Numeral.solid {s : String} (h : Numeral s) : Text.Solid s :=
  fun c hc => isBlank_of_numeral (h.2 c hc)

theorem Numeral.notMem {s : String} (h : Numeral s) {c : Char} (high : 57 < c.toNat) :
    c ∉ s.toList := by
  intro mem
  have := (h.2 c mem).2
  omega

theorem Numeral.ne_null {s : String} (h : Numeral s) :
    Text.equalIgnoringAsciiCase s "null" = false := by
  rw [Text.equalIgnoringAsciiCase, beq_eq_false_iff_ne]
  intro same
  cases chars : s.toList with
  | nil => exact h.1 chars
  | cons c cs =>
    have first := h.2 c (by rw [chars]; simp)
    rw [chars, List.map_cons] at same
    have head : c.toLower = 'n' := (List.cons.inj same).1
    have lower : c.toLower = c := by
      unfold Char.toLower
      rw [dif_neg]
      intro upper
      have := upper.1
      rw [ge_iff_le, UInt32.le_iff_toNat_le] at this
      change 65 ≤ c.toNat at this
      omega
    rw [lower] at head
    subst head
    revert first
    decide

/-- A numeral is a text. -/
theorem text?_of_numeral {s : String} (h : Numeral s) : text? s = some s := by
  unfold text?
  rw [Text.trim_of_solid h.solid]
  have ne : s ≠ "" := by
    rintro rfl
    exact h.1 rfl
  simp [ne, h.ne_null]

theorem numeral_of_digits {cs : List Char} (ne : cs ≠ []) (digits : ∀ c ∈ cs, c.isDigit = true) :
    Numeral (String.ofList cs) := by
  refine ⟨by simpa using ne, fun c hc => ?_⟩
  rw [String.toList_ofList] at hc
  have := digits c hc
  rw [Char.isDigit, Bool.and_eq_true, decide_eq_true_eq, decide_eq_true_eq,
    ge_iff_le, UInt32.le_iff_toNat_le, UInt32.le_iff_toNat_le] at this
  change 48 ≤ c.toNat ∧ c.toNat ≤ 57 at this
  omega

theorem isDigit_toDigits (n : Nat) : ∀ c ∈ Nat.toDigits 10 n, c.isDigit = true :=
  fun _ hc => Nat.isDigit_of_mem_toDigits (by decide) (by decide) hc

/-! ## Integers -/

theorem toString_eq (k : Int) :
    toString k = String.ofList ((if 0 ≤ k then [] else ['-']) ++ Nat.toDigits 10 k.natAbs) := by
  rw [Int.toString_eq_repr, Int.repr_eq_if]
  split
  · rename_i pos
    rw [Nat.repr_eq_ofList_toDigits, List.nil_append, show k.toNat = k.natAbs by omega]
  · rename_i neg
    rw [Nat.repr_eq_ofList_toDigits, show (-k).toNat = k.natAbs by omega, String.ofList_append]

theorem numeral_toString (k : Int) : Numeral (toString k) := by
  rw [toString_eq]
  obtain ⟨-, digits⟩ := numeral_of_digits Nat.toDigits_ne_nil (isDigit_toDigits k.natAbs)
  rw [String.toList_ofList] at digits
  refine ⟨by simp, fun c hc => ?_⟩
  rw [String.toList_ofList, List.mem_append] at hc
  rcases hc with hc | hc
  · split at hc
    · cases hc
    · rw [List.mem_singleton.mp hc]
      decide
  · exact digits c hc

theorem readSign_digits {cs : List Char} (digits : ∀ c ∈ cs, c.isDigit = true) :
    Decimal.readSign cs = (false, cs) := by
  unfold Decimal.readSign
  split
  · exact absurd (digits '-' (by simp)) (by decide)
  · exact absurd (digits '+' (by simp)) (by decide)
  · rfl

theorem readDigits?_toDigits (n : Nat) : Decimal.readDigits? (Nat.toDigits 10 n) = some n := by
  have all : (Nat.toDigits 10 n).all Char.isDigit = true := List.all_eq_true.mpr (isDigit_toDigits n)
  rw [Decimal.readDigits?, if_pos ⟨Nat.toDigits_ne_nil, all⟩]
  exact congrArg some Nat.ofDigitChars_ten_toDigits

theorem readInt?_toString (k : Int) : Decimal.readInt? (toString k).toList = some k := by
  rw [toString_eq, String.toList_ofList, Decimal.readInt?]
  by_cases pos : 0 ≤ k
  · rw [if_pos pos, List.nil_append, readSign_digits (isDigit_toDigits _)]
    have value : (k.natAbs : Int) = k := by omega
    simp only [readDigits?_toDigits]
    exact congrArg some value
  · rw [if_neg pos, List.singleton_append, Decimal.readSign]
    have value : -(k.natAbs : Int) = k := by omega
    simp only [readDigits?_toDigits]
    exact congrArg some value

theorem int?_toString {k : Int} (fits : inRange k = true) : int? (toString k) = some k := by
  have plain : plainInt? (toString k) = some k := by
    rw [plainInt?, readInt?_toString, Option.filter_some, if_pos fits]
  have trimmed : Text.trim (toString k) = toString k :=
    Text.trim_of_solid (numeral_toString k).solid
  unfold int?
  simp only [trimmed, plain]

/-! ## Words -/

theorem bool?_boolText (b : Bool) : bool? (boolText b) = some b := by
  cases b <;> rfl

theorem text?_boolText (b : Bool) : text? (boolText b) = some (boolText b) := by
  cases b <;> rfl

end Literal

theorem Operation.read?_keyword (op : Operation) : read? op.keyword = some op := by
  cases op <;> rfl

theorem Operation.text?_keyword (op : Operation) : Literal.text? op.keyword = some op.keyword := by
  cases op <;> rfl

end Rollup

import Mathlib.Algebra.Order.Field.Power
import Mathlib.Tactic.FieldSimp
import Mathlib.Tactic.Linarith
import Mathlib.Tactic.NormNum
import Mathlib.Tactic.Positivity
import Mathlib.Tactic.Ring
import Mathlib.Tactic.SplitIfs
import Rollup.Number.Kept

/-!
# Rounding to binary64

A fraction in the rounding interval of a finite number rounds to that number. The exponent that is
chosen for the fraction is the number's own, except just below a power of two: there it is one
less, and rounding carries over.

Results:

* `exponentFor_reached`, `lt_exponentFor`: the exponent that is chosen for a fraction.
* `roundDiv_eq`: the integer nearest to a fraction.
* `ofRatio?_of_contains`: the number that a fraction rounds to.
* `canonical_of_ofRatio?`, `canonical_kept`: rounding gives finite numbers, and so does a store.
-/

namespace Rollup.Binary64

/-! ## The exponent of a fraction -/

/-- A fraction divided by a power of a base, as it is written without negative exponents. -/
theorem div_scaled (base : Nat) (basePos : 0 < base) (num : Nat) {den : Nat} (pos : 0 < den)
    (e : Int) {n d : Nat}
    (scaled : (if 0 ≤ e then (num, den * base ^ e.toNat) else (num * base ^ (-e).toNat, den)) =
      (n, d)) :
    0 < d ∧ (n : ℚ) / d = num / den / (base : ℚ) ^ e := by
  have den_pos : (0 : ℚ) < den := by exact_mod_cast pos
  have base_pos : (0 : ℚ) < base := by exact_mod_cast basePos
  by_cases up : 0 ≤ e
  · obtain ⟨k, rfl⟩ := Int.eq_ofNat_of_zero_le up
    rw [if_pos up] at scaled
    cases scaled
    refine ⟨Nat.mul_pos pos (Nat.pow_pos basePos), ?_⟩
    simp only [Int.toNat_natCast, zpow_natCast]
    push_cast
    field_simp
  · obtain ⟨k, rfl⟩ : ∃ k : Nat, e = -(k : Int) := ⟨(-e).toNat, by omega⟩
    rw [if_neg up] at scaled
    cases scaled
    refine ⟨pos, ?_⟩
    simp only [neg_neg, Int.toNat_natCast, zpow_neg, zpow_natCast]
    push_cast
    field_simp

theorem scaleDown_eq (num : Nat) {den : Nat} (pos : 0 < den) (e : Int) :
    0 < (scaleDown num den e).2 ∧
      ((scaleDown num den e).1 : ℚ) / (scaleDown num den e).2 = num / den / 2 ^ e :=
  div_scaled 2 (by decide) num pos e rfl

section Exponent

variable {num den : Nat} (pos : 0 < den) (ne : num ≠ 0)

include pos

/-- The test of the first guess compares the fraction with a power of two. -/
theorem scaleDown_lt_iff (e : Int) :
    (scaleDown num den e).1 < (scaleDown num den e).2 * twoTo 52 ↔
      (num : ℚ) / den < 2 ^ (e + 52) := by
  obtain ⟨scaledPos, scaled⟩ := scaleDown_eq num pos e
  have scale : (0 : ℚ) < 2 ^ e := by positivity
  rw [zpow_add₀ (by norm_num), mul_comm ((2 : ℚ) ^ e), ← div_lt_iff₀ scale, ← scaled,
    div_lt_iff₀ (by exact_mod_cast scaledPos), twoTo, Nat.pow_eq, Nat.mul_comm]
  exact_mod_cast Iff.rfl

include ne

/-- The first guess is off by at most one. -/
theorem guess_bounds :
    (2 : ℚ) ^ ((num.log2 : Int) - den.log2 - 1) ≤ (num : ℚ) / den ∧
      (num : ℚ) / den < 2 ^ ((num.log2 : Int) - den.log2 + 1) := by
  have two : (2 : ℚ) ≠ 0 := by norm_num
  have den_pos : (0 : ℚ) < den := by exact_mod_cast pos
  have numLow : (2 : ℚ) ^ num.log2 ≤ num := by exact_mod_cast Nat.log2_self_le ne
  have numHigh : (num : ℚ) < 2 ^ (num.log2 + 1) := by exact_mod_cast Nat.lt_log2_self
  have denLow : (2 : ℚ) ^ den.log2 ≤ den := by exact_mod_cast Nat.log2_self_le pos.ne'
  have denHigh : (den : ℚ) < 2 ^ (den.log2 + 1) := by exact_mod_cast Nat.lt_log2_self
  rw [le_div_iff₀ den_pos, div_lt_iff₀ den_pos]
  constructor
  · calc (2 : ℚ) ^ ((num.log2 : Int) - den.log2 - 1) * den
        ≤ 2 ^ ((num.log2 : Int) - den.log2 - 1) * 2 ^ (den.log2 + 1) :=
          mul_le_mul_of_nonneg_left denHigh.le (by positivity)
      _ = 2 ^ num.log2 := by
          rw [← zpow_natCast, ← zpow_natCast, ← zpow_add₀ two]
          congr 1
          push_cast
          ring
      _ ≤ num := numLow
  · calc (num : ℚ) < 2 ^ (num.log2 + 1) := numHigh
      _ = 2 ^ ((num.log2 : Int) - den.log2 + 1) * 2 ^ den.log2 := by
          rw [← zpow_natCast, ← zpow_natCast, ← zpow_add₀ two]
          congr 1
          push_cast
          ring
      _ ≤ 2 ^ ((num.log2 : Int) - den.log2 + 1) * den :=
          mul_le_mul_of_nonneg_left denLow (by positivity)

/-- The exponent is the least one, or the fraction has a significand of at least 53 bits at it. -/
theorem exponentFor_reached : exponentFor num den = minExponent ∨
    minExponent < exponentFor num den ∧ (2 : ℚ) ^ (exponentFor num den + 52) ≤ (num : ℚ) / den := by
  have low := (guess_bounds pos ne).1
  unfold exponentFor
  dsimp only
  set guess : Int := (num.log2 : Int) - (den.log2 : Int) - 52 with hguess
  have choose : ∀ e : Int, (2 : ℚ) ^ (e + 52) ≤ (num : ℚ) / den → max e minExponent = minExponent ∨
      minExponent < max e minExponent ∧ (2 : ℚ) ^ (max e minExponent + 52) ≤ (num : ℚ) / den := by
    intro e reached
    rcases le_or_gt e minExponent with le | gt
    · exact Or.inl (max_eq_right le)
    · rw [max_eq_left gt.le]
      exact Or.inr ⟨gt, reached⟩
  split_ifs with small
  · refine choose _ ?_
    rw [show guess - 1 + 52 = (num.log2 : Int) - den.log2 - 1 by omega]
    exact low
  · exact choose _ (not_lt.mp (mt (scaleDown_lt_iff pos guess).mpr small))

/-- The fraction has a significand of at most 53 bits at its exponent. -/
theorem lt_exponentFor : (num : ℚ) / den < 2 ^ (exponentFor num den + 53) := by
  have high := (guess_bounds pos ne).2
  unfold exponentFor
  dsimp only
  set guess : Int := (num.log2 : Int) - (den.log2 : Int) - 52 with hguess
  have raise : ∀ e : Int, (num : ℚ) / den < 2 ^ (e + 53) →
      (num : ℚ) / den < 2 ^ (max e minExponent + 53) := fun e less =>
    less.trans_le (zpow_le_zpow_right₀ (by norm_num) (by omega))
  split_ifs with small
  · refine raise _ ?_
    rw [show guess - 1 + 53 = guess + 52 by ring]
    exact (scaleDown_lt_iff pos guess).mp small
  · refine raise _ ?_
    rw [show guess + 53 = (num.log2 : Int) - den.log2 + 1 by omega]
    exact high

end Exponent

/-! ## The nearest integer -/

/-- The integer at most a half away; a half away only from an even one. -/
theorem roundDiv_eq {n d s : Nat} (pos : 0 < d) (low : (s : ℚ) - 1 / 2 ≤ n / d)
    (high : (n : ℚ) / d ≤ s + 1 / 2)
    (odd : s % 2 = 1 → (s : ℚ) - 1 / 2 < n / d ∧ (n : ℚ) / d < s + 1 / 2) : roundDiv n d = s := by
  have d_pos : (0 : ℚ) < d := by exact_mod_cast pos
  rw [le_div_iff₀ d_pos, lt_div_iff₀ d_pos, div_lt_iff₀ d_pos] at *
  rw [div_le_iff₀ d_pos] at high
  have low' : 2 * (s * d) ≤ 2 * n + d := by
    have : (2 * (s * d) : ℚ) ≤ 2 * n + d := by linarith
    exact_mod_cast this
  have high' : 2 * n ≤ 2 * (s * d) + d := by
    have : (2 * n : ℚ) ≤ 2 * (s * d) + d := by linarith
    exact_mod_cast this
  have odd' : s % 2 = 1 → 2 * (s * d) < 2 * n + d ∧ 2 * n < 2 * (s * d) + d := by
    intro h
    have strictLow : (2 * (s * d) : ℚ) < 2 * n + d := by linarith [(odd h).1]
    have strictHigh : (2 * n : ℚ) < 2 * (s * d) + d := by linarith [(odd h).2]
    exact ⟨by exact_mod_cast strictLow, by exact_mod_cast strictHigh⟩
  have split := Nat.div_add_mod' n d
  have rest := Nat.mod_lt n pos
  have near : s = n / d ∨ s = n / d + 1 := by
    rcases lt_trichotomy s (n / d) with less | same | more
    · have := Nat.mul_le_mul_right d less
      rw [Nat.succ_mul] at this
      omega
    · exact Or.inl same
    · rcases Nat.lt_or_ge (n / d + 1) s with far | close
      · have := Nat.mul_le_mul_right d far
        rw [Nat.succ_mul, Nat.succ_mul] at this
        omega
      · exact Or.inr (by omega)
  unfold roundDiv
  dsimp only
  rcases near with same | next
  · rw [same] at odd' high'
    rw [same]
    split_ifs <;> omega
  · have expand : (n / d + 1) * d = n / d * d + d := Nat.succ_mul _ _
    rw [next, expand] at odd' low'
    rw [next]
    split_ifs <;> omega

/-- Rounding stays within integer bounds. -/
theorem roundDiv_bounds {n d : Nat} (pos : 0 < d) (k : Nat) :
    (k * d ≤ n → k ≤ roundDiv n d) ∧ (n ≤ k * d → roundDiv n d ≤ k) := by
  have split := Nat.div_add_mod' n d
  have near : roundDiv n d = n / d ∨ roundDiv n d = n / d + 1 ∧ n % d ≠ 0 := by
    unfold roundDiv
    dsimp only
    split_ifs
    · exact Or.inl rfl
    · exact Or.inr ⟨rfl, by omega⟩
    · exact Or.inl rfl
    · exact Or.inr ⟨rfl, by omega⟩
  constructor
  · intro low
    have : k ≤ n / d := (Nat.le_div_iff_mul_le pos).mpr low
    omega
  · intro high
    have floor : n / d ≤ k := Nat.div_le_of_le_mul (Nat.mul_comm k d ▸ high)
    rcases near with same | ⟨next, rest⟩
    · omega
    · rcases floor.lt_or_eq with less | same
      · omega
      · rw [same] at split
        omega

/-! ## Intervals -/

/-- A real lies in the interval. -/
structure RoundingInterval.Contains (i : RoundingInterval) (q : ℚ) : Prop where
  low : (i.low : ℚ) / i.den ≤ q
  high : q ≤ i.high / i.den
  inside : i.closed = false → (i.low : ℚ) / i.den < q ∧ q < i.high / i.den

theorem den_roundingInterval_pos (x : Binary64) : 0 < x.roundingInterval.den := by
  unfold roundingInterval
  dsimp only
  split_ifs
  · decide
  · exact Nat.mul_pos (by decide) (twoTo_pos _)

/-- A number of quarters of the distance to the next number. -/
theorem quarters_div_den (x : Binary64) (k : Nat) :
    ((k * (if 0 ≤ x.exponent then twoTo x.exponent.toNat else 1) : Nat) : ℚ) /
      x.roundingInterval.den = k / 4 * 2 ^ x.exponent := by
  unfold roundingInterval twoTo
  dsimp only
  by_cases up : 0 ≤ x.exponent
  · obtain ⟨e, he⟩ := Int.eq_ofNat_of_zero_le up
    rw [if_pos up, if_pos up, he]
    simp only [Int.toNat_natCast, zpow_natCast, Nat.pow_eq]
    push_cast
    ring
  · obtain ⟨e, he⟩ : ∃ e : Nat, x.exponent = -(e : Int) := ⟨(-x.exponent).toNat, by omega⟩
    rw [if_neg up, if_neg up, he]
    simp only [neg_neg, Int.toNat_natCast, zpow_neg, zpow_natCast, Nat.pow_eq]
    push_cast
    field_simp

theorem value_roundingInterval (x : Binary64) :
    (x.roundingInterval.value : ℚ) / x.roundingInterval.den = x.significand * 2 ^ x.exponent := by
  refine (quarters_div_den x (4 * x.significand)).trans ?_
  push_cast
  ring

theorem high_roundingInterval (x : Binary64) :
    (x.roundingInterval.high : ℚ) / x.roundingInterval.den =
      (x.significand + 1 / 2) * 2 ^ x.exponent := by
  refine (quarters_div_den x (4 * x.significand + 2)).trans ?_
  push_cast
  ring

theorem low_roundingInterval {x : Binary64} (ne : x.significand ≠ 0) :
    (x.roundingInterval.low : ℚ) / x.roundingInterval.den =
      (x.significand - if x.significand = twoTo 52 ∧ minExponent < x.exponent then 1 / 4 else 1 / 2) *
        2 ^ x.exponent := by
  refine (quarters_div_den x (4 * x.significand -
    if x.significand = twoTo 52 ∧ minExponent < x.exponent then 1 else 2)).trans ?_
  split_ifs
  · rw [Nat.cast_sub (by omega)]
    push_cast
    ring
  · rw [Nat.cast_sub (by omega)]
    push_cast
    ring

section Contains

variable {x : Binary64} (ne : x.significand ≠ 0) {q : ℚ} (h : x.roundingInterval.Contains q)

include ne h

/-- A real of the interval, in units of the last place. -/
theorem scaled_of_contains :
    (x.significand : ℚ) - 1 / 2 ≤ q / 2 ^ x.exponent ∧
      q / 2 ^ x.exponent ≤ x.significand + 1 / 2 ∧
      (x.significand % 2 = 1 → (x.significand : ℚ) - 1 / 2 < q / 2 ^ x.exponent ∧
        q / 2 ^ x.exponent < x.significand + 1 / 2) := by
  have scale : (0 : ℚ) < 2 ^ x.exponent := by positivity
  have least : ((x.significand : ℚ) - 1 / 2) * 2 ^ x.exponent ≤
      x.roundingInterval.low / x.roundingInterval.den := by
    rw [low_roundingInterval ne]
    refine mul_le_mul_of_nonneg_right ?_ scale.le
    split_ifs <;> linarith
  have high := high_roundingInterval x
  rw [le_div_iff₀ scale, div_le_iff₀ scale, lt_div_iff₀ scale, div_lt_iff₀ scale, ← high]
  refine ⟨least.trans h.low, h.high, fun odd => ?_⟩
  have isOpen : x.roundingInterval.closed = false := by simp [roundingInterval, odd]
  obtain ⟨above, below⟩ := h.inside isOpen
  exact ⟨least.trans_lt above, below⟩

theorem pos_of_contains : 0 < q := by
  obtain ⟨low, -, -⟩ := scaled_of_contains ne h
  have one : (1 : ℚ) ≤ x.significand := by exact_mod_cast Nat.one_le_iff_ne_zero.mpr ne
  have scale : (0 : ℚ) < 2 ^ x.exponent := by positivity
  have : 0 < q / 2 ^ x.exponent := by linarith
  exact (div_pos_iff_of_pos_right scale).mp this

end Contains

/-! ## The nearest number -/

/-- A fraction other than zero, by the significand that it has at its exponent. -/
theorem ofRatio?_of_rounded (negative : Bool) {num den s : Nat} (ne : num ≠ 0)
    (rounded : roundDiv (scaleDown num den (exponentFor num den)).1
      (scaleDown num den (exponentFor num den)).2 = s) :
    ofRatio? negative num den =
      if s = twoTo 53 then
        if maxExponent < exponentFor num den + 1 then none
        else some ⟨negative, twoTo 52, exponentFor num den + 1⟩
      else if maxExponent < exponentFor num den then none
        else some ⟨negative, s, exponentFor num den⟩ := by
  unfold ofRatio?
  rw [if_neg ne]
  extract_lets e
  split
  rename_i n d scaled
  rw [scaled] at rounded
  extract_lets r
  split
  rename_i s' e' carried
  rw [show r = s from rounded] at carried
  by_cases carry : s = twoTo 53
  · rw [if_pos carry] at carried ⊢
    cases carried
    rfl
  · rw [if_neg carry] at carried ⊢
    cases carried
    rfl

section Nearest

variable {x : Binary64} (finite : x.Canonical) (ne : x.significand ≠ 0) {num den : Nat}
  (pos : 0 < den) (h : x.roundingInterval.Contains ((num : ℚ) / den))

include ne h

theorem num_ne_zero : num ≠ 0 := by
  rintro rfl
  have := pos_of_contains ne h
  simp at this

include finite pos

/-- The exponent of a fraction is not beyond that of the number. -/
theorem exponentFor_le : exponentFor num den ≤ x.exponent := by
  have numNe := num_ne_zero ne h
  have scale : (0 : ℚ) < 2 ^ x.exponent := by positivity
  obtain ⟨-, high, -⟩ := scaled_of_contains ne h
  rcases exponentFor_reached pos numNe with least | ⟨-, reached⟩
  · rw [least]
    exact finite.2.1
  · by_contra beyond
    have significand : (x.significand : ℚ) + 1 ≤ 2 ^ 53 := by
      have : x.significand + 1 ≤ 2 ^ 53 := finite.1
      exact_mod_cast this
    have large : (2 : ℚ) ^ (x.exponent + 53) ≤ 2 ^ (exponentFor num den + 52) :=
      zpow_le_zpow_right₀ (by norm_num) (by omega)
    have above := large.trans reached
    rw [zpow_add₀ (by norm_num), mul_comm, ← le_div_iff₀ scale] at above
    norm_cast at above
    have : ((2 ^ 53 : Nat) : ℚ) = 2 ^ 53 := by norm_num
    rw [this] at above
    linarith

/-- Below the exponent of the number there are only fractions that round up to a power of two. -/
theorem carry_of_exponentFor_lt (less : exponentFor num den < x.exponent) :
    x.significand = twoTo 52 ∧ exponentFor num den + 1 = x.exponent ∧
      ((twoTo 53 : Nat) : ℚ) - 1 / 2 ≤ (num : ℚ) / den / 2 ^ exponentFor num den ∧
      (num : ℚ) / den / 2 ^ exponentFor num den ≤ ((twoTo 53 : Nat) : ℚ) + 1 / 2 := by
  have numNe := num_ne_zero ne h
  have two : (2 : ℚ) ≠ 0 := by norm_num
  have scale : (0 : ℚ) < 2 ^ x.exponent := by positivity
  have above : minExponent < x.exponent := by
    rcases exponentFor_reached pos numNe with least | ⟨least, -⟩ <;> omega
  have normal : twoTo 52 ≤ x.significand := by
    rcases finite.2.2.2 with normal | least
    · exact normal
    · exact absurd above (by omega)
  have cast : ((twoTo 52 : Nat) : ℚ) = 2 ^ 52 := by norm_num [twoTo]
  have cast' : ((twoTo 53 : Nat) : ℚ) = 2 ^ 53 := by norm_num [twoTo]
  have below := lt_exponentFor pos numNe
  -- the fraction is less than the power of two that the number reaches
  have small : (num : ℚ) / den / 2 ^ x.exponent < 2 ^ 52 := by
    have raised : (2 : ℚ) ^ (exponentFor num den + 53) ≤ 2 ^ (x.exponent + 52) :=
      zpow_le_zpow_right₀ (by norm_num) (by omega)
    rw [div_lt_iff₀ scale, mul_comm]
    refine (below.trans_le raised).trans_eq ?_
    rw [zpow_add₀ two]
    norm_cast
  have power : x.significand = twoTo 52 := by
    by_contra more
    have next : ((twoTo 52 : Nat) : ℚ) + 1 ≤ x.significand := by
      have : twoTo 52 + 1 ≤ x.significand := by omega
      exact_mod_cast this
    rw [cast] at next
    linarith [(scaled_of_contains ne h).1]
  have low := h.low
  rw [low_roundingInterval ne, if_pos ⟨power, above⟩, power, cast] at low
  have step : exponentFor num den + 1 = x.exponent := by
    by_contra far
    have raised : (2 : ℚ) ^ (exponentFor num den + 53) ≤ 2 ^ (x.exponent + 51) :=
      zpow_le_zpow_right₀ (by norm_num) (by omega)
    have less := low.trans_lt (below.trans_le raised)
    rw [zpow_add₀ two, mul_comm] at less
    have := lt_of_mul_lt_mul_left less scale.le
    norm_num at this
  refine ⟨power, step, ?_, ?_⟩
  · rw [cast', le_div_iff₀ (by positivity)]
    rw [← step, zpow_add_one₀ two] at low
    linarith
  · rw [cast', div_le_iff₀ (by positivity)]
    have top : (2 : ℚ) ^ (exponentFor num den + 53) = 2 ^ 53 * 2 ^ exponentFor num den := by
      rw [zpow_add₀ two, mul_comm]
      norm_cast
    have positive : (0 : ℚ) < 2 ^ exponentFor num den := by positivity
    rw [top] at below
    linarith

/-- A fraction in the rounding interval of a finite number rounds to it. -/
theorem ofRatio?_of_contains (negative : Bool) :
    ofRatio? negative num den = some ⟨negative, x.significand, x.exponent⟩ := by
  obtain ⟨scaledPos, scaled⟩ := scaleDown_eq num pos (exponentFor num den)
  have last : ¬ maxExponent < x.exponent := not_lt.mpr finite.2.2.1
  rcases (exponentFor_le finite ne pos h).lt_or_eq with less | same
  · obtain ⟨power, step, low, high⟩ := carry_of_exponentFor_lt finite ne pos h less
    rw [← scaled] at low high
    have even : twoTo 53 % 2 ≠ 1 := by decide
    have rounded := roundDiv_eq scaledPos low high fun odd => absurd odd even
    rw [ofRatio?_of_rounded negative (num_ne_zero ne h) rounded, if_pos rfl, step, if_neg last,
      power]
  · rw [same] at scaled scaledPos
    obtain ⟨low, high, odd⟩ := scaled_of_contains ne h
    rw [← scaled] at low high odd
    have rounded := roundDiv_eq scaledPos low high odd
    rw [← same] at rounded
    rw [ofRatio?_of_rounded negative (num_ne_zero ne h) rounded, if_neg finite.1.ne, same,
      if_neg last]

end Nearest

/-! ## Results of rounding -/

section Result

variable {num den : Nat} (pos : 0 < den) (ne : num ≠ 0)

include pos ne

/-- The significand that a fraction rounds to has at most 53 bits, and 53 bits unless the exponent is
    the least one. -/
theorem roundDiv_exponentFor :
    roundDiv (scaleDown num den (exponentFor num den)).1
        (scaleDown num den (exponentFor num den)).2 ≤ twoTo 53 ∧
      (exponentFor num den = minExponent ∨
        twoTo 52 ≤ roundDiv (scaleDown num den (exponentFor num den)).1
          (scaleDown num den (exponentFor num den)).2) := by
  obtain ⟨scaledPos, scaled⟩ := scaleDown_eq num pos (exponentFor num den)
  have scale : (0 : ℚ) < 2 ^ exponentFor num den := by positivity
  have d_pos : (0 : ℚ) < (scaleDown num den (exponentFor num den)).2 := by exact_mod_cast scaledPos
  constructor
  · refine (roundDiv_bounds scaledPos _).2 ?_
    have less := lt_exponentFor pos ne
    rw [zpow_add₀ (by norm_num), mul_comm ((2 : ℚ) ^ exponentFor num den), ← div_lt_iff₀ scale,
      ← scaled, div_lt_iff₀ d_pos] at less
    rw [twoTo, Nat.pow_eq]
    exact_mod_cast less.le
  · refine (exponentFor_reached pos ne).imp id fun reached => (roundDiv_bounds scaledPos _).1 ?_
    have le := reached.2
    rw [zpow_add₀ (by norm_num), mul_comm ((2 : ℚ) ^ exponentFor num den), ← le_div_iff₀ scale,
      ← scaled, le_div_iff₀ d_pos] at le
    rw [twoTo, Nat.pow_eq]
    exact_mod_cast le

end Result

/-- What a fraction rounds to is a finite number. -/
theorem canonical_of_ofRatio? {negative : Bool} {num den : Nat} (pos : 0 < den) {x : Binary64}
    (rounded : ofRatio? negative num den = some x) : x.Canonical := by
  by_cases zero : num = 0
  · rw [ofRatio?, if_pos zero] at rounded
    cases rounded
    cases negative <;> decide
  · obtain ⟨high, low⟩ := roundDiv_exponentFor pos zero
    have least : minExponent ≤ exponentFor num den := le_max_right _ _
    have more : twoTo 52 < twoTo 53 := by decide
    rw [ofRatio?_of_rounded negative zero rfl] at rounded
    split_ifs at rounded with carry beyond beyond
    · cases rounded
      exact ⟨more, by change _ ≤ _ + 1; omega, not_lt.mp beyond, Or.inl le_rfl⟩
    · cases rounded
      exact ⟨lt_of_le_of_ne high carry, least, not_lt.mp beyond, low.symm⟩

/-- What a fraction of at least one rounds to is not zero. -/
theorem significand_ne_zero_of_ofRatio? {negative : Bool} {num den : Nat} (pos : 0 < den)
    (one : den ≤ num) {x : Binary64} (rounded : ofRatio? negative num den = some x) :
    x.significand ≠ 0 := by
  have ne : num ≠ 0 := by omega
  obtain ⟨scaledPos, -⟩ := scaleDown_eq num pos (exponentFor num den)
  have filled : roundDiv (scaleDown num den (exponentFor num den)).1
      (scaleDown num den (exponentFor num den)).2 ≠ 0 := by
    rcases (roundDiv_exponentFor pos ne).2 with least | reached
    · have scaled : scaleDown num den (exponentFor num den) =
          (num * twoTo (-minExponent).toNat, den) := by
        rw [least]
        rfl
      have enough : 1 * den ≤ num * twoTo (-minExponent).toNat := by
        have := Nat.mul_le_mul one (twoTo_pos (-minExponent).toNat)
        omega
      rw [scaled]
      exact Nat.pos_iff_ne_zero.mp ((roundDiv_bounds pos 1).1 enough)
    · have := twoTo_pos 52
      omega
  rw [ofRatio?_of_rounded negative ne rfl] at rounded
  split_ifs at rounded
  · cases rounded
    exact (twoTo_pos 52).ne'
  · cases rounded
    exact filled

end Rollup.Binary64

namespace Rollup

/-! ## Kept numbers -/

theorem Binary64.magnitude_pos (x : Binary64) :
    0 < x.magnitude.2 ∧ (x.significand ≠ 0 → 0 < x.magnitude.1) := by
  unfold magnitude
  split_ifs
  · exact ⟨Nat.one_pos, fun ne => Nat.mul_pos (Nat.pos_of_ne_zero ne) (twoTo_pos _)⟩
  · exact ⟨twoTo_pos _, fun ne => Nat.pos_of_ne_zero ne⟩

theorem Binary64.canonical_of_mul? {x y z : Binary64} (product : x.mul? y = some z) : z.Canonical :=
  canonical_of_ofRatio? (Nat.mul_pos x.magnitude_pos.1 y.magnitude_pos.1) product

theorem Binary64.canonical_of_div? {x y z : Binary64} (ne : y.significand ≠ 0)
    (quotient : x.div? y = some z) : z.Canonical :=
  canonical_of_ofRatio? (Nat.mul_pos x.magnitude_pos.1 (y.magnitude_pos.2 ne)) quotient

theorem Decimal.powerOfTen?_ne_zero {n : Nat} {p : Binary64} (h : powerOfTen? n = some p) :
    p.significand ≠ 0 :=
  Binary64.significand_ne_zero_of_ofRatio? Nat.one_pos (tenTo_pos n) h

theorem Decimal.canonical_of_scaled? {d : Decimal} {x : Binary64} (scaled : d.scaled? = some x) :
    x.Canonical := by
  unfold scaled? at scaled
  obtain ⟨digits, -, scaled⟩ := Option.bind_eq_some_iff.mp scaled
  by_cases up : 0 ≤ d.exponent
  · rw [if_pos up] at scaled
    obtain ⟨p, -, product⟩ := Option.bind_eq_some_iff.mp scaled
    exact Binary64.canonical_of_mul? product
  rw [if_neg up] at scaled
  extract_lets down at scaled
  split_ifs at scaled
  · obtain ⟨p, power, quotient⟩ := Option.bind_eq_some_iff.mp scaled
    exact Binary64.canonical_of_div? (powerOfTen?_ne_zero power) quotient
  · obtain ⟨p, -, scaled⟩ := Option.bind_eq_some_iff.mp scaled
    obtain ⟨once, -, scaled⟩ := Option.bind_eq_some_iff.mp scaled
    obtain ⟨q, power, quotient⟩ := Option.bind_eq_some_iff.mp scaled
    exact Binary64.canonical_of_div? (powerOfTen?_ne_zero power) quotient

/-- A kept number is a finite number. -/
theorem Binary64.canonical_kept {x : Binary64} (finite : x.Canonical) : x.kept.Canonical := by
  unfold kept
  cases scaled : (x.shortest .even).kept.scaled? with
  | none => exact finite
  | some y => exact Decimal.canonical_of_scaled? scaled

end Rollup

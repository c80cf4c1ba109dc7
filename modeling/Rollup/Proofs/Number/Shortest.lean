import Rollup.Proofs.Number.Rounding

/-!
# The shortest decimal rounds to its number

The search for a short decimal ends within twenty digits: on that grid the next decimal above the
number is nearer to it than half the distance to the next number. What the search finds lies in the
rounding interval.

Results:

* `admits_iff`: the test of a decimal says whether it lies in the interval.
* `decimalSize_le`: the number of digits before the point.
* `contains_shortest`: the shortest decimal lies in the interval of its number.
-/

namespace Rollup.Binary64

/-! ## Decimals in an interval -/

theorem admits_iff {i : RoundingInterval} (pos : 0 < i.den) {digits : Nat} {e : Int} :
    i.admits digits e = true ↔ i.Contains (digits * 10 ^ e) := by
  have den_pos : (0 : ℚ) < i.den := by exact_mod_cast pos
  unfold RoundingInterval.admits
  split
  rename_i left scale compared
  -- both sides of the comparisons are multiplied by the same number
  have side : 0 < scale ∧ (digits : ℚ) * 10 ^ e = left / (scale * i.den) := by
    unfold tenTo at compared
    by_cases up : 0 ≤ e
    · obtain ⟨k, rfl⟩ := Int.eq_ofNat_of_zero_le up
      rw [if_pos up] at compared
      cases compared
      refine ⟨by decide, ?_⟩
      simp only [Int.toNat_natCast, zpow_natCast, Nat.pow_eq]
      push_cast
      field_simp
    · obtain ⟨k, rfl⟩ : ∃ k : Nat, e = -(k : Int) := ⟨(-e).toNat, by omega⟩
      rw [if_neg up] at compared
      cases compared
      refine ⟨Nat.pow_pos (by decide), ?_⟩
      simp only [neg_neg, Int.toNat_natCast, zpow_neg, zpow_natCast, Nat.pow_eq]
      push_cast
      field_simp
  obtain ⟨scalePos, value⟩ := side
  have scale_pos : (0 : ℚ) < scale := by exact_mod_cast scalePos
  have product_pos : (0 : ℚ) < scale * i.den := mul_pos scale_pos den_pos
  have ends : ∀ k : Nat, (k : ℚ) / i.den = (k * scale : Nat) / (scale * i.den) := by
    intro k
    push_cast
    field_simp
  have le_left : ∀ k : Nat, (k : ℚ) / i.den ≤ digits * 10 ^ e ↔ k * scale ≤ left := by
    intro k
    rw [ends, value, div_le_div_iff_of_pos_right product_pos, Nat.cast_le]
  have left_le : ∀ k : Nat, (digits : ℚ) * 10 ^ e ≤ k / i.den ↔ left ≤ k * scale := by
    intro k
    rw [ends, value, div_le_div_iff_of_pos_right product_pos, Nat.cast_le]
  have lt_left : ∀ k : Nat, (k : ℚ) / i.den < digits * 10 ^ e ↔ k * scale < left := fun k => by
    rw [← not_le, left_le, not_le]
  have left_lt : ∀ k : Nat, (digits : ℚ) * 10 ^ e < k / i.den ↔ left < k * scale := fun k => by
    rw [← not_le, le_left, not_le]
  split_ifs with closed
  · rw [Bool.and_eq_true, decide_eq_true_eq, decide_eq_true_eq, ← le_left, ← left_le]
    constructor
    · rintro ⟨low, high⟩
      refine ⟨low, high, fun isOpen => ?_⟩
      rw [closed] at isOpen
      cases isOpen
    · exact fun h => ⟨h.low, h.high⟩
  · rw [Bool.and_eq_true, decide_eq_true_eq, decide_eq_true_eq, ← lt_left, ← left_lt]
    constructor
    · rintro ⟨low, high⟩
      exact ⟨low.le, high.le, fun _ => ⟨low, high⟩⟩
    · exact fun h => h.inside (by simpa using closed)

/-! ## The size of a fraction -/

theorem ten_pow_le {n : Nat} (ne : n ≠ 0) : (10 : ℚ) ^ ((Nat.toDigits 10 n).length - 1) ≤ n := by
  have length := Nat.length_toDigits_pos (b := 10) (n := n)
  by_cases one : (Nat.toDigits 10 n).length = 1
  · rw [one]
    have : 1 ≤ n := Nat.one_le_iff_ne_zero.mpr ne
    simpa using this
  · have longer := mt (Nat.length_toDigits_le_iff (b := 10) (n := n)
      (k := (Nat.toDigits 10 n).length - 1) (by decide) (by omega)).mpr (by omega)
    exact_mod_cast not_lt.mp longer

theorem lt_ten_pow (n : Nat) : (n : ℚ) < 10 ^ (Nat.toDigits 10 n).length := by
  have := (Nat.length_toDigits_le_iff (b := 10) (n := n) (k := (Nat.toDigits 10 n).length)
    (by decide) Nat.length_toDigits_pos).mp (Nat.le_refl _)
  exact_mod_cast this

/-- A fraction has at least the place before its size. -/
theorem decimalSize_le {num den : Nat} (ne : num ≠ 0) (pos : 0 < den) :
    (10 : ℚ) ^ (decimalSize num den - 1) ≤ (num : ℚ) / den := by
  have den_pos : (0 : ℚ) < den := by exact_mod_cast pos
  have length := Nat.length_toDigits_pos (b := 10) (n := num)
  unfold decimalSize
  extract_lets guess reached
  split_ifs with h
  · rw [Int.add_sub_cancel]
    obtain ⟨scaledPos, scaled⟩ := div_scaled 10 (by decide) num pos guess (Prod.eta _).symm
    have compared : (if 0 ≤ guess then (num, den * 10 ^ guess.toNat)
        else (num * 10 ^ (-guess).toNat, den)).2 ≤
        (if 0 ≤ guess then (num, den * 10 ^ guess.toNat) else (num * 10 ^ (-guess).toNat, den)).1 := by
      unfold reached tenTo at h
      split_ifs at h ⊢ <;> simpa using h
    have one : (1 : ℚ) ≤ (num : ℚ) / den / (10 : ℕ) ^ guess := by
      rw [← scaled, one_le_div (by exact_mod_cast scaledPos)]
      exact_mod_cast compared
    rw [one_le_div (by positivity)] at one
    exact_mod_cast one
  · rw [le_div_iff₀ den_pos]
    calc (10 : ℚ) ^ (guess - 1) * den
        ≤ 10 ^ (guess - 1) * 10 ^ (Nat.toDigits 10 den).length :=
          mul_le_mul_of_nonneg_left (lt_ten_pow den).le (by positivity)
      _ = 10 ^ ((Nat.toDigits 10 num).length - 1) := by
          rw [← zpow_natCast, ← zpow_natCast, ← zpow_add₀ (by norm_num)]
          congr 1
          push_cast [Nat.cast_sub length]
          ring
      _ ≤ num := ten_pow_le ne

/-! ## The search -/

theorem admits_of_onGrid? {tie : Tie} {i : RoundingInterval} {e : Int} {d : Nat}
    (h : onGrid? tie i e = some d) : i.admits d e = true := by
  unfold onGrid? at h
  split at h
  rename_i num den _
  extract_lets lower upper at h
  split at h
  · rename_i low high
    rw [Bool.and_eq_true] at low
    rw [← Option.some.inj h]
    split_ifs
    · exact low.1
    · exact high
  · rename_i low _
    rw [Bool.and_eq_true] at low
    rw [← Option.some.inj h]
    exact low.1
  · rename_i high
    rw [← Option.some.inj h]
    exact high
  · cases h

/-- A grid that is finer than the distance to the upper end has a hit. -/
theorem onGrid?_isSome (tie : Tie) {i : RoundingInterval} (pos : 0 < i.den) {e : Int}
    (low : i.low ≤ i.value) (fine : (i.value : ℚ) / i.den + 10 ^ e < i.high / i.den) :
    (onGrid? tie i e).isSome = true := by
  have den_pos : (0 : ℚ) < i.den := by exact_mod_cast pos
  have step_pos : (0 : ℚ) < 10 ^ e := by positivity
  unfold onGrid?
  split
  rename_i num den scaled
  obtain ⟨denPos, value⟩ := div_scaled 10 (by decide) i.value pos e scaled
  extract_lets lower upper
  -- the next decimal above the number is less than a step away from it
  have denPosQ : (0 : ℚ) < den := by exact_mod_cast denPos
  have floor_le : lower * den ≤ num := Nat.div_mul_le_self num den
  have lt_ceil : num < upper * den := by
    rw [show upper * den = lower * den + den from Nat.succ_mul _ _]
    exact Nat.lt_div_mul_add denPos
  have most : (lower : ℚ) * 10 ^ e ≤ i.value / i.den := by
    rw [← le_div_iff₀ step_pos]
    refine le_of_le_of_eq ?_ value
    rw [le_div_iff₀ denPosQ]
    exact_mod_cast floor_le
  have least : (i.value : ℚ) / i.den < upper * 10 ^ e := by
    rw [← div_lt_iff₀ step_pos]
    refine lt_of_eq_of_lt value.symm ?_
    rw [div_lt_iff₀ denPosQ]
    exact_mod_cast lt_ceil
  have inside : (i.low : ℚ) / i.den < upper * 10 ^ e ∧ (upper : ℚ) * 10 ^ e < i.high / i.den := by
    have lowest : (i.low : ℚ) / i.den ≤ i.value / i.den := by
      rw [div_le_div_iff_of_pos_right den_pos]
      exact_mod_cast low
    have next : (upper : ℚ) = lower + 1 := by exact_mod_cast rfl
    refine ⟨lowest.trans_lt least, ?_⟩
    rw [next, add_mul, one_mul]
    linarith
  have above : i.admits upper e = true :=
    (admits_iff pos).mpr ⟨inside.1.le, inside.2.le, fun _ => inside⟩
  rw [above]
  cases i.admits lower e && lower ≠ 0 <;> rfl

theorem admits_of_searchGrids {tie : Tie} {i : RoundingInterval} {size : Int} (tries : Nat) :
    ∀ (digits d : Nat) (e : Int), searchGrids tie i size tries digits = some (d, e) →
      i.admits d e = true := by
  induction tries with
  | zero => intro digits d e h; cases h
  | succ tries ih =>
    intro digits d e h
    rw [searchGrids] at h
    cases found : onGrid? tie i (size - digits) with
    | some d' =>
      rw [found] at h
      cases h
      exact admits_of_onGrid? found
    | none =>
      rw [found] at h
      exact ih _ _ _ h

theorem searchGrids_isSome {tie : Tie} {i : RoundingInterval} {size : Int} {k : Nat}
    (hit : (onGrid? tie i (size - k)).isSome = true) (tries : Nat) :
    ∀ digits, digits ≤ k → k < digits + tries →
      (searchGrids tie i size tries digits).isSome = true := by
  induction tries with
  | zero => intro digits least most; omega
  | succ tries ih =>
    intro digits least most
    rw [searchGrids]
    cases found : onGrid? tie i (size - digits) with
    | some d => rfl
    | none =>
      refine ih _ ?_ (by omega)
      rcases Nat.lt_or_eq_of_le least with less | same
      · exact less
      · rw [← same, found] at hit
        cases hit

/-! ## The decimal of a number -/

section Number

variable {x : Binary64} (finite : x.Canonical) (ne : x.significand ≠ 0) (tie : Tie)

include finite ne

/-- Twenty digits are enough. -/
theorem searchGrids_roundingInterval : ∃ d e, searchGrids tie x.roundingInterval
    (decimalSize x.roundingInterval.value x.roundingInterval.den) 20 1 = some (d, e) := by
  have pos := den_roundingInterval_pos x
  have scale : (0 : ℚ) < 2 ^ x.exponent := by positivity
  have valueNe : x.roundingInterval.value ≠ 0 := by
    have positive : (0 : ℚ) < x.significand := by exact_mod_cast Nat.pos_of_ne_zero ne
    have value := mul_pos positive scale
    rw [← value_roundingInterval] at value
    intro zero
    rw [zero] at value
    simp at value
  set size := decimalSize x.roundingInterval.value x.roundingInterval.den with hsize
  have sized := decimalSize_le valueNe pos
  rw [value_roundingInterval, ← hsize] at sized
  have significand : (x.significand : ℚ) < 2 ^ 53 := by
    have : x.significand < 2 ^ 53 := finite.1
    exact_mod_cast this
  have fine : (10 : ℚ) ^ (size - (20 : Nat)) < 1 / 2 * 2 ^ x.exponent := by
    have places : (10 : ℚ) ^ (size - (20 : Nat)) = 10 ^ (size - 1) / 10 ^ 19 := by
      rw [eq_div_iff (by positivity), ← zpow_natCast, ← zpow_add₀ (by norm_num)]
      congr 1
      push_cast
      ring
    rw [places, div_lt_iff₀ (by positivity)]
    refine sized.trans_lt ?_
    have : (x.significand : ℚ) < 1 / 2 * 10 ^ 19 := significand.trans (by norm_num)
    calc (x.significand : ℚ) * 2 ^ x.exponent < 1 / 2 * 10 ^ 19 * 2 ^ x.exponent :=
          mul_lt_mul_of_pos_right this scale
      _ = 1 / 2 * 2 ^ x.exponent * 10 ^ 19 := by ring
  have low : x.roundingInterval.low ≤ x.roundingInterval.value :=
    Nat.mul_le_mul_right _ (Nat.sub_le _ _)
  have hit := onGrid?_isSome tie pos (e := size - (20 : Nat)) low (by
    rw [value_roundingInterval, high_roundingInterval, add_mul]
    linarith)
  obtain ⟨⟨d, e⟩, found⟩ :=
    Option.isSome_iff_exists.mp (searchGrids_isSome hit 20 1 (by decide) (by decide))
  exact ⟨d, e, found⟩

/-- The shortest decimal of a number lies in its rounding interval. -/
theorem contains_shortest : (x.shortest tie).negative = x.negative ∧
    x.roundingInterval.Contains ((x.shortest tie).digits * 10 ^ (x.shortest tie).exponent) := by
  obtain ⟨d, e, found⟩ := searchGrids_roundingInterval finite ne tie
  have inside := (admits_iff (den_roundingInterval_pos x)).mp (admits_of_searchGrids 20 1 d e found)
  unfold shortest
  rw [if_neg ne]
  simp only [found]
  split_ifs with divides
  · refine ⟨rfl, ?_⟩
    have value : ((d / 10 : Nat) : ℚ) * 10 ^ (e + 1) = d * 10 ^ e := by
      obtain ⟨k, rfl⟩ := Nat.dvd_of_mod_eq_zero divides
      rw [Nat.mul_div_cancel_left k (by decide), zpow_add₀ (by norm_num)]
      push_cast
      ring
    rw [value]
    exact inside
  · exact ⟨rfl, inside⟩

end Number

end Rollup.Binary64

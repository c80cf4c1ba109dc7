import Mathlib.Data.List.TakeWhile
import Rollup.Proofs.Literal
import Rollup.Proofs.Number.Shortest

/-!
# Numbers that have been written

The text of a finite number is read as that number again: a number is written as a decimal that
rounds to it, and the decimal is read with its exact value.

Results:

* `read?_positional`: reading a decimal in positional notation gives its sign and value.
* `toBinary64?_of_contains`: the number that a decimal rounds to.
* `number?_text`: reading the text of a finite number.
-/

namespace Rollup

/-! ## Reading decimals -/

namespace Decimal

/-- The characters of a sign. -/
def sign (negative : Bool) : List Char :=
  if negative then ['-'] else []

theorem readSign_sign (negative : Bool) {body : List Char}
    (starts : ∃ c rest, body = c :: rest ∧ c.isDigit = true) :
    readSign (sign negative ++ body) = (negative, body) := by
  obtain ⟨c, rest, rfl, digit⟩ := starts
  cases negative with
  | true => rfl
  | false =>
    rw [show sign false = [] from rfl, List.nil_append]
    unfold readSign
    split
    · rename_i same
      cases same
      exact absurd digit (by decide)
    · rename_i same
      cases same
      exact absurd digit (by decide)
    · rfl

section Read

variable (negative : Bool) {whole fraction : List Char} (ne : whole ≠ [])
  (digits : ∀ c ∈ whole, c.isDigit = true)

include ne digits

theorem starts_digit (tail : List Char) :
    ∃ c rest, whole ++ tail = c :: rest ∧ c.isDigit = true := by
  cases whole with
  | nil => exact absurd rfl ne
  | cons c rest => exact ⟨c, rest ++ tail, rfl, digits c (by simp)⟩

theorem read?_whole :
    read? (sign negative ++ whole) = some ⟨negative, digitsValue whole, 0⟩ := by
  have starts := starts_digit ne digits []
  rw [List.append_nil] at starts
  have taken : whole.takeWhile Char.isDigit = whole := List.takeWhile_eq_self_iff.mpr digits
  have dropped : whole.dropWhile Char.isDigit = [] := List.dropWhile_eq_nil_iff.mpr digits
  have nonempty : whole.isEmpty = false := by simpa using ne
  rw [read?, readSign_sign negative starts]
  simp only [taken, dropped, nonempty, Bool.false_and, Bool.false_eq_true, if_false, readExponent?,
    List.append_nil, Option.map_some, List.length_nil]
  rfl

theorem read?_fraction (fractionDigits : ∀ c ∈ fraction, c.isDigit = true) :
    read? (sign negative ++ (whole ++ '.' :: fraction)) =
      some ⟨negative, digitsValue (whole ++ fraction), -(fraction.length : Int)⟩ := by
  have starts := starts_digit ne digits ('.' :: fraction)
  have point : Char.isDigit '.' = false := by decide
  have taken : (whole ++ '.' :: fraction).takeWhile Char.isDigit = whole := by
    rw [List.takeWhile_append_of_pos digits, List.takeWhile_cons_of_neg (by simp [point]),
      List.append_nil]
  have dropped : (whole ++ '.' :: fraction).dropWhile Char.isDigit = '.' :: fraction := by
    rw [List.dropWhile_append_of_pos digits, List.dropWhile_cons_of_neg (by simp [point])]
  have takenFraction : fraction.takeWhile Char.isDigit = fraction :=
    List.takeWhile_eq_self_iff.mpr fractionDigits
  have droppedFraction : fraction.dropWhile Char.isDigit = [] :=
    List.dropWhile_eq_nil_iff.mpr fractionDigits
  have nonempty : whole.isEmpty = false := by simpa using ne
  rw [read?, readSign_sign negative starts]
  simp only [taken, dropped, takenFraction, droppedFraction, nonempty, Bool.false_and,
    Bool.false_eq_true, if_false, readExponent?, Option.map_some, Int.zero_sub]

end Read

section Zeros

variable (n k : Nat)

theorem isDigit_zeros : ∀ c ∈ List.replicate k '0', c.isDigit = true := by
  intro c hc
  rw [(List.mem_replicate.mp hc).2]
  decide

theorem isDigit_append {xs ys : List Char} (hx : ∀ c ∈ xs, c.isDigit = true)
    (hy : ∀ c ∈ ys, c.isDigit = true) : ∀ c ∈ xs ++ ys, c.isDigit = true := by
  intro c hc
  exact (List.mem_append.mp hc).elim (hx c) (hy c)

/-- Zeros in front do not count. -/
theorem digitsValue_zeros_append :
    digitsValue (List.replicate k '0' ++ Nat.toDigits 10 n) = n := by
  rw [digitsValue, ← Nat.ofDigitChars, Nat.ofDigitChars_append, Nat.ofDigitChars_replicate_zero,
    Nat.mul_zero, Nat.ofDigitChars_ten_toDigits]

/-- Zeros at the end are powers of ten. -/
theorem digitsValue_append_zeros :
    digitsValue (Nat.toDigits 10 n ++ List.replicate k '0') = n * 10 ^ k := by
  rw [digitsValue, ← Nat.ofDigitChars, Nat.ofDigitChars_append, Nat.ofDigitChars_ten_toDigits,
    Nat.ofDigitChars_replicate_zero, Nat.mul_comm]

end Zeros

/-- A whole number is read from its digits and zeros. -/
theorem read?_positional_whole {d : Decimal} {k : Nat} (exponent : d.exponent = k) :
    read? d.positional.toList =
      some ⟨d.negative, d.digits * 10 ^ k, 0⟩ := by
  have up : 0 ≤ d.exponent := by omega
  unfold positional
  rw [String.toList_ofList]
  dsimp only
  rw [if_pos up, exponent, Int.toNat_natCast]
  by_cases zero : d.digits = 0
  · rw [if_pos zero, zero, Nat.zero_mul]
    exact read?_whole d.negative (List.cons_ne_nil '0' []) (by simp)
  · rw [if_neg zero]
    have ne : Nat.toDigits 10 d.digits ++ List.replicate k '0' ≠ [] := by simp
    have read := read?_whole d.negative ne
      (isDigit_append (Literal.isDigit_toDigits d.digits) (isDigit_zeros k))
    rwa [digitsValue_append_zeros] at read

/-- A fraction is read from its padded digits, with the point between them. -/
theorem read?_positional_fraction {d : Decimal} {k : Nat} (exponent : d.exponent = -(k : Int))
    (pos : 0 < k) : read? d.positional.toList = some ⟨d.negative, d.digits, -(k : Int)⟩ := by
  have down : ¬ 0 ≤ d.exponent := by omega
  unfold positional
  rw [String.toList_ofList]
  dsimp only
  rw [if_neg down, exponent, Int.neg_neg, Int.toNat_natCast]
  set padded := List.replicate (k + 1 - (Nat.toDigits 10 d.digits).length) '0' ++
    Nat.toDigits 10 d.digits with hpadded
  have digits : ∀ c ∈ padded, c.isDigit = true :=
    isDigit_append (isDigit_zeros _) (Literal.isDigit_toDigits d.digits)
  have length : k + 1 ≤ padded.length := by
    rw [hpadded, List.length_append, List.length_replicate]
    omega
  have ne : padded.take (padded.length - k) ≠ [] := by
    rw [← List.length_pos_iff, List.length_take]
    omega
  have places : (padded.drop (padded.length - k)).length = k := by
    rw [List.length_drop]
    omega
  have fraction : ∀ c ∈ padded.drop (padded.length - k), c.isDigit = true := fun c hc =>
    digits c (List.mem_of_mem_drop hc)
  have read := read?_fraction d.negative ne (fun c hc => digits c (List.mem_of_mem_take hc))
    fraction
  rwa [List.take_append_drop, places, hpadded, digitsValue_zeros_append] at read

/-- Reading a decimal in positional notation gives its sign and value. -/
theorem read?_positional (d : Decimal) : ∃ d', read? d.positional.toList = some d' ∧
    d'.negative = d.negative ∧
    (d'.digits : ℚ) * 10 ^ d'.exponent = d.digits * 10 ^ d.exponent := by
  by_cases up : 0 ≤ d.exponent
  · obtain ⟨k, hk⟩ := Int.eq_ofNat_of_zero_le up
    refine ⟨_, read?_positional_whole hk, rfl, ?_⟩
    rw [hk]
    push_cast
    simp
  · obtain ⟨k, hk⟩ : ∃ k : Nat, d.exponent = -(k : Int) := ⟨(-d.exponent).toNat, by omega⟩
    refine ⟨_, read?_positional_fraction hk (by omega), rfl, ?_⟩
    rw [hk]

/-! ## Rounding decimals -/

theorem two_pow_le_ten_pow {m n : Nat} (h : m ≤ 3 * n) : (2 : ℚ) ^ m ≤ 10 ^ n := by
  calc (2 : ℚ) ^ m ≤ 2 ^ (3 * n) := pow_le_pow_right₀ (by norm_num) h
    _ = (2 ^ 3) ^ n := pow_mul 2 3 n
    _ ≤ 10 ^ n := pow_le_pow_left₀ (by norm_num) (by norm_num) n

/-- The number of digits and the exponent bound a decimal from above. -/
theorem lt_ten_zpow (d : Decimal) : (d.digits : ℚ) * 10 ^ d.exponent <
    10 ^ ((Nat.toDigits 10 d.digits).length + d.exponent) := by
  have power : (0 : ℚ) < 10 ^ d.exponent := by positivity
  calc (d.digits : ℚ) * 10 ^ d.exponent
      < 10 ^ (Nat.toDigits 10 d.digits).length * 10 ^ d.exponent :=
        mul_lt_mul_of_pos_right (Binary64.lt_ten_pow _) power
    _ = 10 ^ ((Nat.toDigits 10 d.digits).length + d.exponent) := by
        rw [zpow_add₀ (by norm_num), zpow_natCast]

/-- The number of digits and the exponent bound a positive decimal from below. -/
theorem ten_zpow_le {d : Decimal} (ne : d.digits ≠ 0) :
    (10 : ℚ) ^ ((Nat.toDigits 10 d.digits).length + d.exponent - 1) ≤
      d.digits * 10 ^ d.exponent := by
  have power : (0 : ℚ) < 10 ^ d.exponent := by positivity
  have length := Nat.length_toDigits_pos (b := 10) (n := d.digits)
  have split : ((Nat.toDigits 10 d.digits).length + d.exponent - 1 : Int) =
      ((Nat.toDigits 10 d.digits).length - 1 : Nat) + d.exponent := by
    omega
  calc (10 : ℚ) ^ ((Nat.toDigits 10 d.digits).length + d.exponent - 1)
      = 10 ^ ((Nat.toDigits 10 d.digits).length - 1) * 10 ^ d.exponent := by
        rw [split, zpow_add₀ (by norm_num), zpow_natCast]
    _ ≤ d.digits * 10 ^ d.exponent :=
        mul_le_mul_of_nonneg_right (Binary64.ten_pow_le ne) power.le

section Nearest

variable {d : Decimal} {x : Binary64} (finite : x.Canonical) (ne : x.significand ≠ 0)
  (h : x.roundingInterval.Contains ((d.digits : ℚ) * 10 ^ d.exponent))

include ne h

theorem digits_ne_zero_of_contains : d.digits ≠ 0 := by
  intro zero
  have positive := Binary64.pos_of_contains ne h
  rw [zero] at positive
  simp at positive

include finite

/-- The least positive number is `2 ^ (-1074)`, and half of it is the least that rounds to it. -/
theorem two_zpow_le_of_contains : (2 : ℚ) ^ (-1075 : Int) ≤ d.digits * 10 ^ d.exponent := by
  have scale : (0 : ℚ) < 2 ^ x.exponent := by positivity
  obtain ⟨low, -, -⟩ := Binary64.scaled_of_contains ne h
  rw [le_div_iff₀ scale] at low
  have one : (1 : ℚ) ≤ x.significand := by exact_mod_cast Nat.one_le_iff_ne_zero.mpr ne
  have least : (2 : ℚ) ^ (-1074 : Int) ≤ 2 ^ x.exponent :=
    zpow_le_zpow_right₀ (by norm_num) finite.2.1
  have half : (2 : ℚ) ^ (-1075 : Int) = 1 / 2 * 2 ^ (-1074 : Int) := by
    rw [show (-1075 : Int) = -1 + -1074 from rfl, zpow_add₀ (by norm_num)]
    norm_num
  rw [half]
  refine le_trans ?_ low
  exact mul_le_mul (by linarith) least (by positivity) (by linarith)

/-- The finite numbers are below `2 ^ 1024`, and so is what rounds to them. -/
theorem lt_two_pow_of_contains : (d.digits : ℚ) * 10 ^ d.exponent < 2 ^ (1024 : Nat) := by
  have scale : (0 : ℚ) < 2 ^ x.exponent := by positivity
  obtain ⟨-, high, -⟩ := Binary64.scaled_of_contains ne h
  rw [div_le_iff₀ scale] at high
  have significand : (x.significand : ℚ) + 1 ≤ 2 ^ 53 := by
    have : x.significand + 1 ≤ 2 ^ 53 := finite.1
    exact_mod_cast this
  have greatest : (2 : ℚ) ^ x.exponent ≤ 2 ^ (971 : Nat) := by
    rw [← zpow_natCast]
    exact zpow_le_zpow_right₀ (by norm_num) finite.2.2.1
  calc (d.digits : ℚ) * 10 ^ d.exponent ≤ (x.significand + 1 / 2) * 2 ^ x.exponent := high
    _ < 2 ^ 53 * 2 ^ x.exponent := mul_lt_mul_of_pos_right (by linarith) scale
    _ ≤ 2 ^ 53 * 2 ^ (971 : Nat) := mul_le_mul_of_nonneg_left greatest (by norm_num)
    _ = 2 ^ (1024 : Nat) := (pow_add 2 53 971).symm

/-- A decimal near a finite number is not far outside the range of binary64. -/
theorem size_of_contains : d.digits ≠ 0 ∧
    ¬ ((Nat.toDigits 10 d.digits).length + d.exponent < -400) ∧
    ¬ (400 < (Nat.toDigits 10 d.digits).length + d.exponent) := by
  have digitsNe := digits_ne_zero_of_contains ne h
  refine ⟨digitsNe, fun tiny => ?_, fun huge => ?_⟩
  · have apart : (10 : ℚ) ^ (-400 : Int) ≤ 2 ^ (-1075 : Int) := by
      rw [show (-400 : Int) = -((400 : Nat) : Int) from rfl,
        show (-1075 : Int) = -((1075 : Nat) : Int) from rfl, zpow_neg, zpow_neg, zpow_natCast,
        zpow_natCast]
      exact inv_anti₀ (pow_pos (by norm_num) _) (two_pow_le_ten_pow (by omega))
    have below : (d.digits : ℚ) * 10 ^ d.exponent < 10 ^ (-400 : Int) :=
      d.lt_ten_zpow.trans_le (zpow_le_zpow_right₀ (by norm_num) tiny.le)
    exact lt_irrefl _ (((two_zpow_le_of_contains finite ne h).trans_lt below).trans_le apart)
  · have above : (10 : ℚ) ^ (400 : Nat) ≤ d.digits * 10 ^ d.exponent := by
      rw [← zpow_natCast]
      exact (zpow_le_zpow_right₀ (by norm_num) (by push_cast; omega)).trans (ten_zpow_le digitsNe)
    have apart : (2 : ℚ) ^ (1024 : Nat) ≤ 10 ^ (400 : Nat) := two_pow_le_ten_pow (by omega)
    exact lt_irrefl _ ((above.trans_lt (lt_two_pow_of_contains finite ne h)).trans_le apart)

/-- A decimal in the rounding interval of a finite number rounds to it. -/
theorem toBinary64?_of_contains :
    d.toBinary64? = some ⟨d.negative, x.significand, x.exponent⟩ := by
  obtain ⟨digitsNe, small, large⟩ := size_of_contains finite ne h
  unfold toBinary64?
  dsimp only
  rw [if_neg (not_or.mpr ⟨digitsNe, small⟩), if_neg large]
  split_ifs with up
  · obtain ⟨k, hk⟩ := Int.eq_ofNat_of_zero_le up
    refine Binary64.ofRatio?_of_contains finite ne (by decide) ?_ _
    rw [hk, zpow_natCast] at h
    rw [hk, Int.toNat_natCast, tenTo, Nat.pow_eq]
    push_cast
    simpa using h
  · obtain ⟨k, hk⟩ : ∃ k : Nat, d.exponent = -(k : Int) := ⟨(-d.exponent).toNat, by omega⟩
    refine Binary64.ofRatio?_of_contains finite ne (tenTo_pos _) ?_ _
    rw [hk, zpow_neg, zpow_natCast, ← div_eq_mul_inv] at h
    rw [hk, Int.neg_neg, Int.toNat_natCast, tenTo, Nat.pow_eq]
    push_cast
    exact h

end Nearest

/-! ## Texts of numbers -/

theorem numeral_positional (d : Decimal) : Literal.Numeral d.positional := by
  have digits : ∀ c ∈ Nat.toDigits 10 d.digits, 45 ≤ c.toNat ∧ c.toNat ≤ 57 := by
    have := (Literal.numeral_of_digits Nat.toDigits_ne_nil (Literal.isDigit_toDigits d.digits)).2
    rwa [String.toList_ofList] at this
  have zeros : ∀ (n : Nat), ∀ c ∈ List.replicate n '0', 45 ≤ c.toNat ∧ c.toNat ≤ 57 := by
    intro n c hc
    rw [(List.mem_replicate.mp hc).2]
    decide
  have signs : ∀ c ∈ (if d.negative then ['-'] else []), 45 ≤ c.toNat ∧ c.toNat ≤ 57 := by
    intro c hc
    split_ifs at hc
    · rw [List.mem_singleton.mp hc]
      decide
    · cases hc
  unfold positional
  dsimp only
  refine ⟨?_, fun c hc => ?_⟩
  · rw [String.toList_ofList]
    split_ifs <;> simp
  · rw [String.toList_ofList] at hc
    rcases List.mem_append.mp hc with hc | hc
    · exact signs c hc
    · split_ifs at hc
      · rw [List.mem_singleton.mp hc]
        decide
      · rcases List.mem_append.mp hc with hc | hc
        · exact digits c hc
        · exact zeros _ c hc
      · have padded : ∀ c ∈ List.replicate ((-d.exponent).toNat + 1 -
            (Nat.toDigits 10 d.digits).length) '0' ++ Nat.toDigits 10 d.digits,
            45 ≤ c.toNat ∧ c.toNat ≤ 57 := by
          intro c hc
          rcases List.mem_append.mp hc with hc | hc
          · exact zeros _ c hc
          · exact digits c hc
        rcases List.mem_append.mp hc with hc | hc
        · exact padded c (List.mem_of_mem_take hc)
        · rcases List.mem_cons.mp hc with rfl | hc
          · decide
          · exact padded c (List.mem_of_mem_drop hc)

end Decimal

/-- The text of a finite number is read as the number. -/
theorem Literal.number?_text {x : Binary64} (finite : x.Canonical) :
    number? x.text = some x := by
  have numeral : Numeral x.text := Decimal.numeral_positional _
  have plain : String.ofList ((Text.trim x.text).toList.filter (· ≠ ',')) = x.text := by
    rw [Text.trim_of_solid numeral.solid]
    have all : x.text.toList.filter (· ≠ ',') = x.text.toList := by
      rw [List.filter_eq_self]
      intro c hc
      rw [decide_eq_true_eq]
      rintro rfl
      exact absurd (numeral.2 ',' hc).1 (by decide)
    rw [all, String.ofList_toList]
  obtain ⟨d, read, sign, value⟩ := Decimal.read?_positional (x.shortest .upper)
  rw [number?, plain, plainNumber?, show x.text.toList = _ from rfl, Binary64.text, read,
    Option.bind_some]
  by_cases zero : x.significand = 0
  · -- zero has the least exponent, and its sign is read
    have exponent : x.exponent = Binary64.minExponent := by
      rcases finite.2.2.2 with normal | least
      · rw [zero] at normal
        exact absurd normal (by decide)
      · exact least
    have shortest : x.shortest .upper = ⟨x.negative, 0, 0⟩ := by
      rw [Binary64.shortest, if_pos zero]
    rw [shortest] at sign value
    have digits : d.digits = 0 := by
      have positive : (0 : ℚ) < 10 ^ d.exponent := by positivity
      simpa [positive.ne'] using value
    rw [Decimal.toBinary64?, if_pos (Or.inl digits), sign, ← zero, ← exponent]
  · obtain ⟨same, inside⟩ := Binary64.contains_shortest finite zero .upper
    rw [← value] at inside
    rw [Decimal.toBinary64?_of_contains finite zero inside, sign, same]

end Rollup

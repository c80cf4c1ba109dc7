import Rollup.Number.Power

/-!
# Binary floating-point numbers of 64 bits

Formula constants and shares are finite binary64 numbers. A number is held as sign, significand
and exponent, `± significand · 2 ^ exponent`, and every operation is exact integer arithmetic
followed by one rounding to the nearest representable number, a half going to the even neighbour.
-/

namespace Rollup

/-- A finite binary64 number `± significand · 2 ^ exponent`. A normal number has a significand of
    53 bits; numbers below the least normal one have the exponent `-1074`. -/
structure Binary64 where
  negative : Bool
  significand : Nat
  exponent : Int
  deriving DecidableEq, Repr

namespace Binary64

/-- The least exponent, that of zero and of all numbers below the least normal one. -/
def minExponent : Int := -1074

/-- The greatest exponent of a finite number. -/
def maxExponent : Int := 971

/-- The sign, significand and exponent are those of a finite binary64 number. -/
def Canonical (x : Binary64) : Prop :=
  x.significand < twoTo 53 ∧ minExponent ≤ x.exponent ∧ x.exponent ≤ maxExponent ∧
    (twoTo 52 ≤ x.significand ∨ x.exponent = minExponent)

instance (x : Binary64) : Decidable x.Canonical := by
  unfold Canonical; infer_instance

def zero : Binary64 := ⟨false, 0, minExponent⟩

/-! ## Rounding -/

/-- The integer nearest to `num / den`; a half goes to the even neighbour. -/
def roundDiv (num den : Nat) : Nat :=
  let q := num / den
  let r := num % den
  if 2 * r < den then q
  else if den < 2 * r then q + 1
  else if q % 2 = 0 then q else q + 1

/-- `num / (den · 2 ^ e)` as a fraction of natural numbers. -/
def scaleDown (num den : Nat) (e : Int) : Nat × Nat :=
  if 0 ≤ e then (num, den * twoTo e.toNat) else (num * twoTo (-e).toNat, den)

/-- The exponent at which `num / den` has a significand of 53 bits, but never less than the least
    one. -/
def exponentFor (num den : Nat) : Int :=
  let guess : Int := (num.log2 : Int) - (den.log2 : Int) - 52
  let (n, d) := scaleDown num den guess
  let e := if n < d * twoTo 52 then guess - 1 else guess
  max e minExponent

/-- The number nearest to `num / den` with the given sign, for a positive `den`; nothing if that
    lies beyond the finite numbers. -/
def ofRatio? (negative : Bool) (num den : Nat) : Option Binary64 :=
  if num = 0 then some ⟨negative, 0, minExponent⟩
  else
    let e := exponentFor num den
    let (n, d) := scaleDown num den e
    let s := roundDiv n d
    let (s, e) := if s = twoTo 53 then (twoTo 52, e + 1) else (s, e)
    if maxExponent < e then none else some ⟨negative, s, e⟩

/-- The number nearest to `num / den`, zero for a `den` of zero. -/
def ofRatio (num den : Nat) : Binary64 :=
  if den = 0 then zero else (ofRatio? false num den).getD zero

/-! ## Values and arithmetic -/

/-- The value as a multiple of the least positive number. -/
def units (x : Binary64) : Int :=
  let magnitude : Int := x.significand * twoTo (x.exponent - minExponent).toNat
  if x.negative then -magnitude else magnitude

instance : LT Binary64 := ⟨fun x y => x.units < y.units⟩

instance : LE Binary64 := ⟨fun x y => x.units ≤ y.units⟩

instance (x y : Binary64) : Decidable (x < y) :=
  inferInstanceAs (Decidable (x.units < y.units))

instance (x y : Binary64) : Decidable (x ≤ y) :=
  inferInstanceAs (Decidable (x.units ≤ y.units))

/-- The magnitude as a fraction. -/
def magnitude (x : Binary64) : Nat × Nat :=
  if 0 ≤ x.exponent then (x.significand * twoTo x.exponent.toNat, 1)
  else (x.significand, twoTo (-x.exponent).toNat)

/-- The product with a natural number, rounded; the factor's result is assumed finite. -/
def scale (x : Binary64) (k : Nat) : Binary64 :=
  let (n, d) := x.magnitude
  (ofRatio? x.negative (n * k) d).getD x

/-- The product, rounded, if it is finite. -/
def mul? (x y : Binary64) : Option Binary64 :=
  ofRatio? (x.negative != y.negative) (x.magnitude.1 * y.magnitude.1)
    (x.magnitude.2 * y.magnitude.2)

/-- The quotient by a number other than zero, rounded, if it is finite. -/
def div? (x y : Binary64) : Option Binary64 :=
  ofRatio? (x.negative != y.negative) (x.magnitude.1 * y.magnitude.2)
    (x.magnitude.2 * y.magnitude.1)

/-- The magnitude rounded to an integer, a half going to the even neighbour. -/
def roundedMagnitude (x : Binary64) : Nat :=
  let (n, d) := x.magnitude
  roundDiv n d

/-- The value if it is an integer. -/
def toInt? (x : Binary64) : Option Int :=
  let (n, d) := x.magnitude
  if n % d = 0 then some (if x.negative then -((n / d : Nat) : Int) else ((n / d : Nat) : Int))
  else none

end Binary64

end Rollup

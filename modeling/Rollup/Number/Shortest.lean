import Rollup.Number.Decimal

/-!
# The shortest decimal of a binary64 number

A number is written with the fewest digits that still round to it; of several such decimals the
nearest is taken. For one digit, two digits, and so on, the two neighbours of the number on that
decimal grid are tried, and the first grid with a hit wins. Two neighbours can be equally near;
printed numbers then take the upper one, kept numbers the one with the even last digit.
-/

namespace Rollup

namespace Binary64

/-- The reals that round to a number, as three fractions over one denominator: the lower end, the
    number, the upper end, and whether the ends belong to it. -/
structure RoundingInterval where
  low : Nat
  value : Nat
  high : Nat
  den : Nat
  closed : Bool
  deriving DecidableEq, Repr

/-- The interval around a positive number. The gap below a power of two is half the gap above. -/
def roundingInterval (x : Binary64) : RoundingInterval :=
  let narrow := x.significand = twoTo 52 ∧ minExponent < x.exponent
  let below := if narrow then 1 else 2
  -- in quarters of the distance to the next number
  let up := if 0 ≤ x.exponent then twoTo x.exponent.toNat else 1
  let den := if 0 ≤ x.exponent then 4 else 4 * twoTo (-x.exponent).toNat
  { low := (4 * x.significand - below) * up
    value := 4 * x.significand * up
    high := (4 * x.significand + 2) * up
    den := den
    closed := x.significand % 2 = 0 }

/-- Whether `digits · 10 ^ e` lies in the interval. -/
def RoundingInterval.admits (i : RoundingInterval) (digits : Nat) (e : Int) : Bool :=
  -- compare digits · 10 ^ e · den with the ends
  let (left, scale) :=
    if 0 ≤ e then (digits * tenTo e.toNat * i.den, 1) else (digits * i.den, tenTo (-e).toNat)
  if i.closed then i.low * scale ≤ left && left ≤ i.high * scale
  else i.low * scale < left && left < i.high * scale

/-- The power `p` of ten with `10 ^ (p - 1) ≤ num / den < 10 ^ p`. -/
def decimalSize (num den : Nat) : Int :=
  let guess : Int := (Nat.toDigits 10 num).length - (Nat.toDigits 10 den).length
  let reached :=
    if 0 ≤ guess then den * tenTo guess.toNat ≤ num else den ≤ num * tenTo (-guess).toNat
  if reached then guess + 1 else guess

/-- Which of two equally near neighbours on a grid is taken. -/
inductive Tie where
  | upper
  | even
  deriving DecidableEq, Repr

/-- Whether a tie between `n` and `n + 1` goes to `n`. -/
def Tie.goesDown : Tie → (n : Nat) → Bool
  | upper, _ => false
  | even, n => n % 2 == 0

/-- The neighbour of the number on the grid of multiples of `10 ^ e` that rounds to it and is the
    nearer one. -/
def onGrid? (tie : Tie) (i : RoundingInterval) (e : Int) : Option Nat :=
  let (num, den) :=
    if 0 ≤ e then (i.value, i.den * tenTo e.toNat) else (i.value * tenTo (-e).toNat, i.den)
  let lower := num / den
  let upper := lower + 1
  match i.admits lower e && lower ≠ 0, i.admits upper e with
  | true, true =>
    let twice := 2 * (num % den)
    some (if twice < den || (twice == den && tie.goesDown lower) then lower else upper)
  | true, false => some lower
  | false, true => some upper
  | false, false => none

/-- The first grid with a hit, from the one with `digits` digits on. -/
def searchGrids (tie : Tie) (i : RoundingInterval) (size : Int) :
    (tries digits : Nat) → Option (Nat × Int)
  | 0, _ => none
  | tries + 1, digits =>
    let e := size - digits
    match onGrid? tie i e with
    | some d => some (d, e)
    | none => searchGrids tie i size tries (digits + 1)

/-- The shortest decimal that rounds to `x`. -/
def shortest (tie : Tie) (x : Binary64) : Decimal :=
  if x.significand = 0 then ⟨x.negative, 0, 0⟩
  else
    let i := x.roundingInterval
    match searchGrids tie i (decimalSize i.value i.den) 20 1 with
    | some (d, e) => if d % 10 = 0 then ⟨x.negative, d / 10, e + 1⟩ else ⟨x.negative, d, e⟩
    | none => ⟨x.negative, 0, 0⟩

/-- The text of a number: its shortest decimal in positional notation. -/
def text (x : Binary64) : String :=
  (x.shortest .upper).positional

end Binary64

end Rollup

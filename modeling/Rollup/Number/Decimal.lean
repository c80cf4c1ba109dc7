import Rollup.Number.Binary64

/-!
# Decimal numerals

Reading a numeral such as `-12.50e3` as sign, digits and power of ten, rounding it to a binary64
number, and the text of a decimal in positional notation.
-/

namespace Rollup

/-- A decimal number `± digits · 10 ^ exponent`. -/
structure Decimal where
  negative : Bool
  digits : Nat
  exponent : Int
  deriving DecidableEq, Repr

namespace Decimal

/-! ## Reading -/

/-- The number that a list of ASCII digits denotes. -/
def digitsValue (cs : List Char) : Nat :=
  cs.foldl (fun n c => 10 * n + (c.toNat - '0'.toNat)) 0

/-- The value of a non-empty list of ASCII digits. -/
def readDigits? (cs : List Char) : Option Nat :=
  if cs ≠ [] ∧ cs.all Char.isDigit then some (digitsValue cs) else none

/-- The sign in front of a numeral, and what follows it. -/
def readSign : List Char → Bool × List Char
  | '-' :: rest => (true, rest)
  | '+' :: rest => (false, rest)
  | cs => (false, cs)

/-- An integer with an optional sign. -/
def readInt? (cs : List Char) : Option Int :=
  let (negative, body) := readSign cs
  (readDigits? body).map fun n => if negative then -(n : Int) else (n : Int)

/-- The exponent part of a numeral: nothing, or `e` and an integer. -/
def readExponent? : List Char → Option Int
  | [] => some 0
  | c :: rest => if c = 'e' ∨ c = 'E' then readInt? rest else none

/-- A decimal numeral: an optional sign, digits with an optional point among, before or after
    them, at least one digit in all, and an optional exponent. -/
def read? (cs : List Char) : Option Decimal :=
  let (negative, body) := readSign cs
  let whole := body.takeWhile Char.isDigit
  let afterWhole := body.dropWhile Char.isDigit
  let (fraction, afterFraction) :=
    match afterWhole with
    | '.' :: rest => (rest.takeWhile Char.isDigit, rest.dropWhile Char.isDigit)
    | rest => ([], rest)
  if whole.isEmpty && fraction.isEmpty then none
  else (readExponent? afterFraction).map fun e =>
    ⟨negative, digitsValue (whole ++ fraction), e - fraction.length⟩

/-! ## Rounding to binary64 -/

/-- The nearest binary64 number, or nothing if that is not finite. Decimals far outside the range
    of binary64 are decided by their size alone. -/
def toBinary64? (d : Decimal) : Option Binary64 :=
  let size : Int := (Nat.toDigits 10 d.digits).length + d.exponent
  if d.digits = 0 ∨ size < -400 then some ⟨d.negative, 0, Binary64.minExponent⟩
  else if 400 < size then none
  else if 0 ≤ d.exponent then
    Binary64.ofRatio? d.negative (d.digits * tenTo d.exponent.toNat) 1
  else
    Binary64.ofRatio? d.negative d.digits (tenTo (-d.exponent).toNat)

/-! ## Positional notation -/

/-- The decimal without an exponent: zeros fill the places up to the point, and a number below
    one starts with a zero. -/
def positional (d : Decimal) : String :=
  let sign := if d.negative then ['-'] else []
  let ds := Nat.toDigits 10 d.digits
  let body :=
    if 0 ≤ d.exponent then
      if d.digits = 0 then ['0'] else ds ++ List.replicate d.exponent.toNat '0'
    else
      let places := (-d.exponent).toNat
      let padded := List.replicate (places + 1 - ds.length) '0' ++ ds
      padded.take (padded.length - places) ++ '.' :: padded.drop (padded.length - places)
  String.ofList (sign ++ body)

end Decimal

end Rollup

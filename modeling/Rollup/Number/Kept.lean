import Rollup.Number.Shortest

/-!
# Numbers that have been kept as text

A store keeps numbers as decimal text. Reading one back rounds twice: the digits become a binary64
number first, and that is then multiplied or divided by the power of ten. Numbers of up to fifteen
digits come back unchanged; longer ones may move to a neighbour.
-/

namespace Rollup

namespace Decimal

/-- The digits and the exponent as they stand in the text of a kept number. A whole number below
    `10 ^ 16` is written out with one decimal place, so that place counts as a digit. -/
def kept (d : Decimal) : Decimal :=
  let size : Int := (Nat.toDigits 10 d.digits).length + d.exponent
  if 0 ≤ d.exponent ∧ size ≤ 16 then ⟨d.negative, d.digits * tenTo (d.exponent.toNat + 1), -1⟩
  else d

/-- The greatest power of ten that one step can scale by. -/
def maxScale : Nat := 308

/-- The binary64 number nearest to a power of ten. -/
def powerOfTen? (n : Nat) : Option Binary64 :=
  Binary64.ofRatio? false (tenTo n) 1

/-- The digits as a binary64 number, scaled by the power of ten. Divisions by more than one step
    can take are split in two. -/
def scaled? (d : Decimal) : Option Binary64 := do
  let digits ← Binary64.ofRatio? d.negative d.digits 1
  if 0 ≤ d.exponent then digits.mul? (← powerOfTen? d.exponent.toNat)
  else
    let down := (-d.exponent).toNat
    if down ≤ maxScale then digits.div? (← powerOfTen? down)
    else
      let once ← digits.div? (← powerOfTen? maxScale)
      once.div? (← powerOfTen? (down - maxScale))

end Decimal

/-- The number after it has been kept as text and read back. -/
def Binary64.kept (x : Binary64) : Binary64 :=
  ((x.shortest .even).kept.scaled?).getD x

end Rollup

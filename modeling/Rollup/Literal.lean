import Rollup.Number.Decimal
import Rollup.Text.Blank
import Rollup.Text.Case

/-!
# Literals in cells

How the text of a cell is read: as an optional text, a truth value, an integer or a number. All
readers ignore blanks at both ends.
-/

namespace Rollup.Literal

/-- The trimmed text, or nothing for a blank cell and for the word `null`. -/
def text? (raw : String) : Option String :=
  let t := Text.trim raw
  if t = "" ∨ Text.equalIgnoringAsciiCase t "null" then none else some t

/-- Spellings of true, in upper case. -/
def trueWords : List String := ["TRUE", "T", "1", "Y", "YES"]

/-- Spellings of false, in upper case. -/
def falseWords : List String := ["FALSE", "F", "0", "N", "NO"]

/-- A truth value in one of its spellings. -/
def bool? (raw : String) : Option Bool :=
  let t := Text.upper (Text.trim raw)
  if t ∈ trueWords then some true else if t ∈ falseWords then some false else none

/-- The spelling of a truth value that is written out. -/
def boolText (b : Bool) : String :=
  if b then "TRUE" else "FALSE"

/-- Whether `n` is a signed integer of 64 bits. -/
def inRange (n : Int) : Bool :=
  -(twoTo 63) ≤ n && n < twoTo 63

/-- A signed integer of 64 bits in plain notation. -/
def plainInt? (raw : String) : Option Int :=
  (Decimal.readInt? raw.toList).filter inRange

/-- An unsigned integer of 64 bits in plain notation, with an optional plus sign. -/
def plainNat? (raw : String) : Option Nat :=
  let body := match raw.toList with
    | '+' :: rest => rest
    | cs => cs
  (Decimal.readDigits? body).filter (· < twoTo 64)

/-- A finite number. -/
def plainNumber? (raw : String) : Option Binary64 :=
  (Decimal.read? raw.toList).bind Decimal.toBinary64?

/-- An integer; a numeral with a zero fraction such as `12.0` counts as one. -/
def int? (raw : String) : Option Int :=
  let t := Text.trim raw
  match plainInt? t with
  | some n => some n
  | none =>
    ((plainNumber? t).bind Binary64.toInt?).filter fun n => -(twoTo 63) < n && n < twoTo 63

/-- A finite number; commas between digit groups are tolerated. -/
def number? (raw : String) : Option Binary64 :=
  plainNumber? (String.ofList ((Text.trim raw).toList.filter (· ≠ ',')))

end Rollup.Literal

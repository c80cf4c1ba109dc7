import Rollup.Text.Blank
import Rollup.Text.Case
import Rollup.Text.Letter

/-!
# Sets of characters

The sets that a pattern can name. Membership can ignore letter case; then a character is in a
range as soon as one of its case variants is.
-/

namespace Rollup.Text

/-- A set of characters. -/
inductive CharSet where
  | empty
  /-- The characters from `lo` to `hi`, both included. -/
  | range (lo hi : Char)
  /-- The characters that can stand inside a word. -/
  | word
  /-- The decimal digits. -/
  | digit
  /-- The blanks. -/
  | blank
  | union (s t : CharSet)
  | complement (s : CharSet)
  deriving DecidableEq, Repr

namespace CharSet

/-- The set of one character. -/
def single (c : Char) : CharSet :=
  range c c

/-- Every character but the line break. -/
def anyInLine : CharSet :=
  complement (single '\n')

/-- Whether `c` is in the set. -/
def holds (ignoreCase : Bool) : CharSet → Char → Bool
  | empty, _ => false
  | range lo hi, c =>
    (if ignoreCase then caseVariants c else [c]).any fun v => lo ≤ v && v ≤ hi
  | word, c => isWordChar c
  | digit, c => isDecimal c
  | blank, c => isBlank c
  | union s t, c => s.holds ignoreCase c || t.holds ignoreCase c
  | complement s, c => !s.holds ignoreCase c

/-- The code points of the set, in normal form. -/
def ranges (ignoreCase : Bool) : CharSet → CodePoints
  | empty => []
  | range lo hi =>
    let variants :=
      if ignoreCase then (caseSensitive.filter fun c => lo ≤ c && c ≤ hi).flatMap caseVariants
      else []
    CodePoints.normal ((lo.toNat, hi.toNat) :: variants.map fun c => (c.toNat, c.toNat))
  | word => wordRanges
  | digit => settledDecimalRanges
  | blank => blankRanges
  | union s t => (s.ranges ignoreCase).union (t.ranges ignoreCase)
  | complement s => (s.ranges ignoreCase).complement

end CharSet

end Rollup.Text

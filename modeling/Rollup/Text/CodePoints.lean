import Rollup.Sort

/-!
# Sets of code points

A character class is a list of closed intervals of code points. Membership is decided by a scan,
so a class is plain data and a statement about it can be checked interval by interval. A set in
normal form has the fewest intervals: they ascend, and between two of them lies a code point
outside.
-/

namespace Rollup.Text

/-- A set of code points, as closed intervals in ascending order. -/
abbrev CodePoints := List (Nat × Nat)

/-- Whether one of the intervals holds `n`. -/
def CodePoints.holds (ranges : CodePoints) (n : Nat) : Bool :=
  ranges.any fun r => r.1 ≤ n && n ≤ r.2

theorem CodePoints.holds_iff (ranges : CodePoints) (n : Nat) :
    ranges.holds n = true ↔ ∃ r ∈ ranges, r.1 ≤ n ∧ n ≤ r.2 := by
  simp [CodePoints.holds]

namespace CodePoints

/-! ## Normal form -/

/-- The last code point. -/
def last : Nat := 0x10FFFF

/-- The code point after `n`; the surrogates are no code points of characters. -/
def after (n : Nat) : Nat :=
  if n = 0xD7FF then 0xE000 else n + 1

/-- The code point before `n`. -/
def before (n : Nat) : Nat :=
  if n = 0xE000 then 0xD7FF else n - 1

/-- Joins intervals that overlap or touch; `lo` to `hi` is the one being joined, and the others
    start no earlier. -/
def joinFrom (lo hi : Nat) : CodePoints → CodePoints
  | [] => [(lo, hi)]
  | (a, b) :: rest =>
    if a ≤ after hi then joinFrom lo (max hi b) rest else (lo, hi) :: joinFrom a b rest

/-- The same set in normal form. -/
def normal (ranges : CodePoints) : CodePoints :=
  match stableSort (fun r q => r.1 ≤ q.1) ranges with
  | [] => []
  | (lo, hi) :: rest => joinFrom lo hi rest

/-- The code points from `start` on that lie outside a set in normal form. -/
def gapsFrom (start : Nat) : CodePoints → CodePoints
  | [] => if start ≤ last then [(start, last)] else []
  | (a, b) :: rest =>
    if start < a then (start, before a) :: gapsFrom (after b) rest else gapsFrom (after b) rest

/-- The code points outside a set in normal form. -/
def complement (ranges : CodePoints) : CodePoints :=
  gapsFrom 0 ranges

/-- The union of two sets in normal form. -/
def union (r q : CodePoints) : CodePoints :=
  normal (r ++ q)

/-- The code points of a set in normal form that are not in another one. -/
def without (r q : CodePoints) : CodePoints :=
  complement (union (complement r) q)

end CodePoints

end Rollup.Text

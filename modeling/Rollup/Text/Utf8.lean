/-!
# Encodings of intervals

The characters of an interval have encodings of one to four octets. They can be given by a few
sequences of octet ranges: an encoding belongs to a sequence when it has the same length and each
octet lies in its range. The sequences are found by looking at the code points as numbers in base
64, whose first digit goes into the leading octet.
-/

namespace Rollup.Text.Utf8

/-- A range for each octet of an encoding. -/
abbrev OctetRanges := List (Nat × Nat)

/-- The power of 64 with a natural exponent. -/
def weight : Nat → Nat
  | 0 => 1
  | k + 1 => 64 * weight k

/-- The ranges of octets that follow the leading one when all are allowed. -/
def anyTail (k : Nat) : OctetRanges :=
  List.replicate k (0x80, 0xBF)

/-- The sequences for the numbers from `lo` to `hi`, which have `k` digits after the first; `base`
    is what the leading octet adds to the first digit. -/
def spread (base : Nat) : (k lo hi : Nat) → List OctetRanges
  | 0, lo, hi => [[(base + lo, base + hi)]]
  | k + 1, lo, hi =>
    let m := weight (k + 1)
    let a := lo / m
    let b := hi / m
    if a = b then (spread 0x80 k (lo % m) (hi % m)).map ((base + a, base + a) :: ·)
    else
      let opened := lo % m ≠ 0
      let closed := hi % m ≠ m - 1
      let first := if opened then a + 1 else a
      let final := if closed then b - 1 else b
      (if opened then (spread 0x80 k (lo % m) (m - 1)).map ((base + a, base + a) :: ·) else []) ++
      (if first ≤ final then [(base + first, base + final) :: anyTail (k + 1)] else []) ++
      (if closed then (spread 0x80 k 0 (hi % m)).map ((base + b, base + b) :: ·) else [])

/-- The code points with encodings of one form. -/
structure Form where
  lo : Nat
  hi : Nat
  /-- The number of octets after the leading one. -/
  tail : Nat
  base : Nat
  deriving DecidableEq, Repr

/-- The forms of encodings. The surrogates have none. -/
def forms : List Form :=
  [⟨0, 0x7F, 0, 0⟩, ⟨0x80, 0x7FF, 1, 0xC0⟩, ⟨0x800, 0xD7FF, 2, 0xE0⟩, ⟨0xE000, 0xFFFF, 2, 0xE0⟩,
   ⟨0x10000, 0x10FFFF, 3, 0xF0⟩]

/-- The sequences for the code points from `lo` to `hi`, in ascending order. -/
def sequences (lo hi : Nat) : List OctetRanges :=
  forms.flatMap fun f =>
    let lo := max lo f.lo
    let hi := min hi f.hi
    if lo ≤ hi then spread f.base f.tail lo hi else []

end Rollup.Text.Utf8

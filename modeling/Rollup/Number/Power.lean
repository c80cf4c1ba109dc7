/-!
# Powers of two and of ten

The powers that place values in binary and decimal notation.
-/

namespace Rollup

/-- The power of two with a natural exponent. -/
def twoTo (n : Nat) : Nat :=
  Nat.pow 2 n

/-- The power of ten with a natural exponent. -/
def tenTo (n : Nat) : Nat :=
  Nat.pow 10 n

@[simp] theorem twoTo_zero : twoTo 0 = 1 :=
  rfl

theorem twoTo_succ (n : Nat) : twoTo (n + 1) = twoTo n * 2 :=
  rfl

@[simp] theorem tenTo_zero : tenTo 0 = 1 :=
  rfl

theorem tenTo_succ (n : Nat) : tenTo (n + 1) = tenTo n * 10 :=
  rfl

theorem twoTo_pos (n : Nat) : 0 < twoTo n :=
  Nat.pow_pos (by decide)

theorem tenTo_pos (n : Nat) : 0 < tenTo n :=
  Nat.pow_pos (by decide)

end Rollup

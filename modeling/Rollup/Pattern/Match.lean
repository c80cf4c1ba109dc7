import Rollup.Pattern

/-!
# Matching patterns

A match attempt starts at all places of a set at once and yields every place at which it can end,
so no choice is ever taken back. Before that the pattern is laid over the text: what it asks of a
single place becomes the set of the places where it holds.
-/

namespace Rollup.Pattern

/-! ## Sets of places in a text

A place lies before, between or after the characters of a text and is named by how many characters
stand before it. A set of places is a natural number that has bit `i` exactly when place `i` belongs
to the set, so that what happens at all places of a text is one operation on numbers.
-/

/-- A set of places in a text. -/
structure Places where
  bits : Nat
  deriving DecidableEq, Repr

namespace Places

/-- The set without a place. -/
def empty : Places :=
  ⟨0⟩

/-- Whether place `i` belongs to the set. -/
def contains (s : Places) (i : Nat) : Bool :=
  s.bits.testBit i

/-- Whether no place belongs to the set. -/
def isEmpty (s : Places) : Bool :=
  s.bits == 0

/-- The places in one of two sets. -/
def union (s t : Places) : Places :=
  ⟨s.bits ||| t.bits⟩

/-- The places in both sets. -/
def inter (s t : Places) : Places :=
  ⟨s.bits &&& t.bits⟩

/-- The places of the first set that are not in the second. -/
def diff (s t : Places) : Places :=
  ⟨(s.bits ||| t.bits) ^^^ t.bits⟩

/-- The places one character further on. -/
def next (s : Places) : Places :=
  ⟨s.bits <<< 1⟩

/-- The places whose flag is set; the flags stand in the order of the places, and a place without a
    flag is left out. -/
def ofFlags (flags : List Bool) : Places :=
  ⟨flags.foldr (fun flag bits => 2 * bits + flag.toNat) 0⟩

/-- The places of a text with `n` characters. -/
def upTo (n : Nat) : Places :=
  ofFlags (List.replicate (n + 1) true)

/-! ## What belongs to a set -/

/-- Sets with the same places are equal. -/
theorem ext_contains {s t : Places} (h : ∀ i, s.contains i = t.contains i) : s = t := by
  cases s
  cases t
  exact congrArg Places.mk (Nat.eq_of_testBit_eq h)

@[simp] theorem contains_empty (i : Nat) : empty.contains i = false := by
  simp [empty, contains]

theorem isEmpty_iff (s : Places) : s.isEmpty = true ↔ ∀ i, s.contains i = false := by
  constructor
  · intro h i
    have h0 : s.bits = 0 := by simpa [isEmpty] using h
    simp [contains, h0]
  · intro h
    have hs : s = empty := ext_contains (by simpa using h)
    simp [hs, isEmpty, empty]

@[simp] theorem contains_union (s t : Places) (i : Nat) :
    (s.union t).contains i = (s.contains i || t.contains i) := by
  simp [union, contains]

@[simp] theorem contains_inter (s t : Places) (i : Nat) :
    (s.inter t).contains i = (s.contains i && t.contains i) := by
  simp [inter, contains]

@[simp] theorem contains_diff (s t : Places) (i : Nat) :
    (s.diff t).contains i = (s.contains i && !t.contains i) := by
  cases hs : s.bits.testBit i <;> cases ht : t.bits.testBit i <;> simp [diff, contains, hs, ht]

@[simp] theorem contains_next_zero (s : Places) : s.next.contains 0 = false := by
  simp [next, contains]

@[simp] theorem contains_next_succ (s : Places) (i : Nat) :
    s.next.contains (i + 1) = s.contains i := by
  simp [next, contains]

@[simp] theorem contains_ofFlags (flags : List Bool) (i : Nat) :
    (ofFlags flags).contains i = flags[i]?.getD false := by
  induction flags generalizing i with
  | nil => simp [ofFlags, contains]
  | cons flag rest ih =>
    cases i with
    | zero => cases flag <;> simp [ofFlags, contains, Nat.testBit_zero]
    | succ i =>
      have h : (2 * (rest.foldr (fun flag bits => 2 * bits + flag.toNat) 0) + flag.toNat) / 2
          = rest.foldr (fun flag bits => 2 * bits + flag.toNat) 0 := by
        have := flag.toNat_le
        omega
      simpa [ofFlags, contains, Nat.testBit_add_one, h] using ih i

@[simp] theorem contains_upTo (n i : Nat) : (upTo n).contains i = decide (i ≤ n) := by
  by_cases h : i < n + 1
  · simp [upTo, h, Nat.le_of_lt_succ h]
  · simp [upTo, h]
    omega

end Places

/-! ## Matching -/

/-- A pattern laid over a text. -/
inductive Overlay where
  /-- Consumes nothing, at one of these places. -/
  | stay (s : Places)
  /-- Consumes the character that follows one of these places. -/
  | take (s : Places)
  | seq (p q : Overlay)
  | alt (p q : Overlay)
  /-- At least `least` times, and then at most `more` times. -/
  | times (p : Overlay) (least more : Nat)
  deriving DecidableEq, Repr

namespace Overlay

/-- Takes a step exactly `n` times. Once a step leads to the same places, so does every later one. -/
def advance (step : Places → Places) : (n : Nat) → Places → Places
  | 0, s => s
  | n + 1, s =>
    let next := step s
    if next = s then s else advance step n next

/-- Takes a step at most `n` times. The places in `s` are reached already, and of them only those in
    `fresh` have not been tried. -/
def reach (step : Places → Places) : (n : Nat) → (s fresh : Places) → Places
  | 0, s, _ => s
  | n + 1, s, fresh =>
    let found := (step fresh).diff s
    if found.isEmpty then s else reach step n (s.union found) found

/-- Where a match that starts at one of the places can end. -/
def ends : Overlay → Places → Places
  | stay t, s => s.inter t
  | take t, s => (s.inter t).next
  | seq p q, s => ends q (ends p s)
  | alt p q, s => (ends p s).union (ends q s)
  | times p least more, s =>
    let first := advance (ends p) least s
    reach (ends p) more first first

end Overlay

/-- The flags of the places that are an edge of a word. -/
def edges (text : List Char) : List Bool :=
  let inside := text.map Text.isWordChar
  List.zipWith (fun before after => before != after) (false :: inside) (inside ++ [false])

/-- Lays a pattern over a text. A round that consumes nothing reaches no new place and can be taken
    any number of times. So one optional round for each character of the text is enough, and of the
    required rounds one more than that. -/
def overlay (text : List Char) : Pattern → Overlay
  | empty => .stay (Places.upTo text.length)
  | set ignoreCase s => .take (Places.ofFlags (text.map (s.holds ignoreCase)))
  | start => .stay (Places.ofFlags [true])
  | stop => .stay (Places.ofFlags ((text.map fun _ => false) ++ [true]))
  | edge expected => .stay (Places.ofFlags ((edges text).map (· == expected)))
  | group p => overlay text p
  | seq p q => .seq (overlay text p) (overlay text q)
  | alt p q => .alt (overlay text p) (overlay text q)
  | times p least more =>
    .times (overlay text p) (min least (text.length + 1)) (min (more.getD text.length) text.length)

/-- Whether the pattern matches some part of the text. -/
def occursIn (p : Pattern) (text : String) : Bool :=
  let chars := text.toList
  !((overlay chars p).ends (Places.upTo chars.length)).isEmpty

end Rollup.Pattern

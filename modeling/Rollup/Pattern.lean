import Rollup.Text.CharSet

/-!
# Patterns for names

A pattern describes texts; a name conforms when the pattern matches somewhere in it.
-/

namespace Rollup

/-- A pattern. -/
inductive Pattern where
  | empty
  /-- One character of a set. -/
  | set (ignoreCase : Bool) (s : Text.CharSet)
  /-- The start of the text. -/
  | start
  /-- The end of the text. -/
  | stop
  /-- An edge of a word, or with `false` a place that is none. -/
  | edge (expected : Bool)
  /-- A pattern that was written as a group. -/
  | group (p : Pattern)
  | seq (p q : Pattern)
  | alt (p q : Pattern)
  /-- At least `least` times, and then at most `more` times, any number if it is absent. -/
  | times (p : Pattern) (least : Nat) (more : Option Nat)
  deriving DecidableEq, Repr

end Rollup

/-!
# Summaries of imports
-/

namespace Rollup

/-- What an import did: counts, and messages in the order in which they arose. -/
structure Summary where
  imported : Nat := 0
  skipped : Nat := 0
  synthesized : Nat := 0
  errors : List String := []
  warnings : List String := []
  deriving DecidableEq, Repr

namespace Summary

/-- Adds error messages. -/
def addErrors (s : Summary) (messages : List String) : Summary :=
  { s with errors := s.errors ++ messages }

/-- Adds warnings. -/
def addWarnings (s : Summary) (messages : List String) : Summary :=
  { s with warnings := s.warnings ++ messages }

/-- Adds one error message. -/
def addError (s : Summary) (message : String) : Summary :=
  s.addErrors [message]

/-- Adds one warning. -/
def addWarning (s : Summary) (message : String) : Summary :=
  s.addWarnings [message]

/-- Counts skipped groups. -/
def skip (s : Summary) (n : Nat) : Summary :=
  { s with skipped := s.skipped + n }

/-- Both summaries together, the messages of the first one in front. -/
def merge (s t : Summary) : Summary :=
  { imported := s.imported + t.imported
    skipped := s.skipped + t.skipped
    synthesized := s.synthesized + t.synthesized
    errors := s.errors ++ t.errors
    warnings := s.warnings ++ t.warnings }

end Summary

/-- A row as messages name it. -/
def rowLabel (number : Nat) : String :=
  "row " ++ toString number ++ ": "

end Rollup

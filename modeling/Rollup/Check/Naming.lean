import Rollup.Finding
import Rollup.Forest
import Rollup.Sort

/-!
# Naming conventions

Names carry no blanks at their ends and none of a few characters that file systems and
spreadsheets object to, and they match a pattern if one is given. How patterns are read is up to the
one who runs the check.
-/

namespace Rollup.Check

/-- The characters that names must not contain. -/
def forbiddenChars : List Char :=
  ['<', '>', ':', '"', '|', '?', '*', '\\']

/-- A way to read patterns: the names that a pattern is found in, if the text is a pattern. -/
abbrev PatternReader := (pattern : String) → Option (String → Bool)

/-- A naming convention in force: the text of the pattern and the names that conform to it. -/
structure NamingRule where
  source : String
  conforms : String → Bool

/-- The rule that a text states; a blank text and one that is no pattern state none. -/
def NamingRule.read? (patterns : PatternReader) (text : String) : Option NamingRule :=
  if Text.isAllBlank text then none else (patterns text).map fun conforms => ⟨text, conforms⟩

/-- The finding for blanks at the ends of a name; the fix cuts them off. -/
def untrimmedName? (n : Node) : Option Finding :=
  let trimmed := Text.trim n.name
  if trimmed = n.name then none
  else some {
    kind := .namingConvention
    severity := .info
    node := some n.ref
    message := "name '" ++ n.name ++ "' has leading or trailing whitespace"
    details := .object [("name", .text n.name)]
    fix := some ⟨"trim_name", .object [("name", .text trimmed)]⟩ }

/-- The forbidden characters of a name, in order and each once. -/
def forbiddenIn (name : String) : List Char :=
  stableSort (fun a b => a ≤ b) (forbiddenChars.filter name.toList.contains)

/-- The finding for forbidden characters. -/
def forbiddenName? (n : Node) : Option Finding :=
  match forbiddenIn n.name with
  | [] => none
  | cs => some {
      kind := .namingConvention
      severity := .warning
      node := some n.ref
      message := "name '" ++ n.name ++ "' contains disallowed characters " ++ String.ofList cs
      details := .object [("characters", .text (String.ofList cs))] }

/-- The finding for a name that does not match. -/
def nonconformingName? (rule : NamingRule) (n : Node) : Option Finding :=
  if rule.conforms n.name then none
  else some {
    kind := .namingConvention
    severity := .info
    node := some n.ref
    message := "name '" ++ n.name ++ "' does not match " ++ rule.source
    details := .object [("pattern", .text rule.source)] }

/-- The findings about the names of all nodes. -/
def naming (f : Forest) (rule : Option NamingRule) : List Finding :=
  f.nodes.flatMap fun n =>
    (untrimmedName? n).toList ++ (forbiddenName? n).toList ++
      (rule.bind fun r => nonconformingName? r n).toList

end Rollup.Check

import Rollup.Check.Cycles
import Rollup.Check.Formulas
import Rollup.Check.Mappings
import Rollup.Check.Naming
import Rollup.Check.Siblings
import Rollup.Pattern.Match
import Rollup.Pattern.Read

/-!
# Inspecting a hierarchy

Runs the checks over the nodes of a project. Findings come by severity; within one severity they
keep the order of the checks.
-/

namespace Rollup

/-- The names that a pattern is found in. -/
def Pattern.reader : Check.PatternReader := fun text =>
  (Pattern.read? text).map fun p => p.occursIn

/-- Which checks run, and how strict they are. -/
structure InspectionSettings where
  disabled : List FindingKind := []
  /-- The share of siblings that has to agree on a table before the others are reported. -/
  threshold : Binary64 := Binary64.ofRatio 7 10
  namingPattern : Option String := none
  /-- How the naming pattern is read. -/
  patterns : Check.PatternReader := Pattern.reader

namespace InspectionSettings

/-- Whether the check for a kind of finding runs. -/
def enabled (s : InspectionSettings) (k : FindingKind) : Bool :=
  !s.disabled.contains k

end InspectionSettings

/-- Findings by severity, the most serious first. -/
def bySeverity (findings : List Finding) : List Finding :=
  stableSort (fun a b => a.severity.rank ≤ b.severity.rank) findings

/-- The findings of the check for a kind. -/
def FindingKind.check (s : InspectionSettings) (f : Forest) : FindingKind → List Finding
  | circularReference => Check.cycles f
  | missingMapping => Check.missingMappings f
  | typeMismatch => Check.typeMismatches f
  | patternInconsistency => Check.patternConsistency f fun share => share < s.threshold
  | duplicateMapping => Check.duplicateMappings f
  | formulaIssue => Check.formulas f
  | namingConvention => Check.naming f (s.namingPattern.bind (Check.NamingRule.read? s.patterns))

/-- The findings of all enabled checks. -/
def inspect (s : InspectionSettings) (nodes : List Node) : List Finding :=
  let f := Forest.ofNodes nodes
  bySeverity ((FindingKind.all.filter s.enabled).flatMap (FindingKind.check s f))

/-- The findings that a mapping would raise if it were put on a node. -/
def inspectChange (n : Node) (candidate : SourceMapping) (nodes : List Node) : List Finding :=
  bySeverity ((Check.candidateDuplicate? n candidate nodes).toList ++
    (Check.typeMismatch? n candidate).toList)

end Rollup

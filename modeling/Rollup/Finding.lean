import Rollup.Node

/-!
# Findings

What the inspection of a hierarchy reports. Every check has its own kind of finding.
-/

namespace Rollup

/-- How serious a finding is. -/
inductive Severity where
  | error
  | warning
  | info
  deriving DecidableEq, Repr

namespace Severity

/-- The name of a severity. -/
def name : Severity → String
  | error => "error"
  | warning => "warning"
  | info => "info"

/-- The most serious ones come first. -/
def rank : Severity → Nat
  | error => 0
  | warning => 1
  | info => 2

end Severity

/-- What a finding is about. -/
inductive FindingKind where
  | circularReference
  | missingMapping
  | typeMismatch
  | patternInconsistency
  | duplicateMapping
  | formulaIssue
  | namingConvention
  deriving DecidableEq, Repr

namespace FindingKind

/-- The name of a kind. -/
def name : FindingKind → String
  | circularReference => "circular_reference"
  | missingMapping => "missing_mapping"
  | typeMismatch => "type_mismatch"
  | patternInconsistency => "pattern_inconsistency"
  | duplicateMapping => "duplicate_mapping"
  | formulaIssue => "formula_issue"
  | namingConvention => "naming_convention"

/-- All kinds, in the order in which their checks run. -/
def all : List FindingKind :=
  [circularReference, missingMapping, typeMismatch, patternInconsistency, duplicateMapping,
   formulaIssue, namingConvention]

/-- The kind with a name. -/
def ofName? (s : String) : Option FindingKind :=
  all.find? (·.name == s)

end FindingKind

/-- The node that a finding points at. -/
structure NodeRef where
  id : String
  hierarchyId : String
  name : String
  deriving DecidableEq, Repr

/-- How a node is pointed at. -/
def Node.ref (n : Node) : NodeRef :=
  ⟨n.id, n.hierarchyId, n.name⟩

/-- A change that would settle a finding. -/
structure Fix where
  action : String
  params : Value
  deriving Repr

/-- One finding. -/
structure Finding where
  kind : FindingKind
  severity : Severity
  node : Option NodeRef
  message : String
  details : Value
  fix : Option Fix := none
  deriving Repr

/-- How many findings there are, in all, by kind and by severity, and how many have a fix. -/
structure FindingSummary where
  total : Nat
  byKind : Dict Nat
  bySeverity : Dict Nat
  fixable : Nat
  deriving DecidableEq, Repr

namespace FindingSummary

/-- How often each text occurs. -/
def tally (names : List String) : Dict Nat :=
  names.foldl (fun counts s => Dict.insert s ((Dict.get? s counts).getD 0 + 1) counts) []

/-- The summary of a list of findings. -/
def ofFindings (findings : List Finding) : FindingSummary :=
  { total := findings.length
    byKind := tally (findings.map (·.kind.name))
    bySeverity := tally (findings.map (·.severity.name))
    fixable := findings.countP (·.fix.isSome) }

end FindingSummary

end Rollup

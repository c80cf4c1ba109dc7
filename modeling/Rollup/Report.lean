import Rollup.Service
import Rollup.Store.Codec

/-!
# Results as values

The value form of what the service answers, as the command line prints it.
-/

namespace Rollup

/-- A count as a value. -/
def Value.count (n : Nat) : Value :=
  .int n

/-- The value form of a detection. -/
def Detection.toValue (d : Detection) : Value :=
  .object [("format", .text d.format.name), ("confidence", .count d.confidence),
    ("hierarchyScore", .count d.hierarchyScore), ("mappingScore", .count d.mappingScore),
    ("legacyScore", .count d.legacyScore)]

/-- The value form of the profile of a column. -/
def ColumnProfile.toValue (p : ColumnProfile) : Value :=
  .object [("header", .text p.header), ("normalized", .text p.normalized),
    ("canonical", .ofOption .text p.canonical), ("filled", .count p.filled),
    ("empty", .count p.empty), ("distinct", .count p.distinct),
    ("booleanLike", .bool p.booleanLike), ("numericLike", .bool p.numericLike),
    ("samples", .texts p.samples)]

/-- The value form of the profile of a file. -/
def Profile.toValue (p : Profile) : Value :=
  .object [("detection", p.detection.toValue), ("rowCount", .count p.rowCount),
    ("columnCount", .count p.columnCount), ("levelDepth", .count p.levelDepth),
    ("columns", .list (p.columns.map ColumnProfile.toValue)),
    ("customFlagCandidates", .texts p.customFlagCandidates), ("parseErrors", .texts p.problems)]

/-- The value form of a summary. -/
def Summary.toValue (s : Summary) : Value :=
  .object [("imported", .count s.imported), ("skipped", .count s.skipped),
    ("synthesized", .count s.synthesized), ("errors", .texts s.errors),
    ("warnings", .texts s.warnings)]

/-- The value form of what resolving did. -/
def ResolutionReport.toValue (r : ResolutionReport) : Value :=
  .object [("nodesUpdated", .count r.nodesUpdated),
    ("referencesResolved", .count r.referencesResolved), ("warnings", .texts r.warnings)]

/-- The value form of what an import did. -/
def ImportReport.toValue (r : ImportReport) : Value :=
  .object [("detection", r.detection.toValue), ("dialect", .text r.dialect.name),
    ("summary", r.summary.toValue),
    ("resolution", .ofOption ResolutionReport.toValue r.resolution)]

/-- The value form of a pointer to a node. -/
def NodeRef.toValue (r : NodeRef) : Value :=
  .object [("id", .text r.id), ("hierarchyId", .text r.hierarchyId), ("name", .text r.name)]

/-- The value form of a fix. -/
def Fix.toValue (f : Fix) : Value :=
  .object [("action", .text f.action), ("params", f.params)]

/-- The value form of a finding. -/
def Finding.toValue (f : Finding) : Value :=
  .object [("type", .text f.kind.name), ("severity", .text f.severity.name),
    ("nodeRef", .ofOption NodeRef.toValue f.node), ("message", .text f.message),
    ("details", f.details), ("autoFixable", .bool f.fix.isSome),
    ("fixAction", .ofOption Fix.toValue f.fix)]

/-- The value form of the counts of findings. -/
def FindingSummary.toValue (s : FindingSummary) : Value :=
  .object [("total", .count s.total), ("byType", .ofDict .count s.byKind),
    ("bySeverity", .ofDict .count s.bySeverity), ("autoFixableCount", .count s.fixable)]

/-- The value form of what an inspection found. -/
def InspectionReport.toValue (r : InspectionReport) : Value :=
  .object [("projectId", .text r.project),
    ("anomalies", .list (r.findings.map Finding.toValue)), ("summary", r.summary.toValue)]

end Rollup

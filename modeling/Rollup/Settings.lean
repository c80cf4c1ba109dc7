import Rollup.Export.Hierarchy
import Rollup.Inspection
import Rollup.LevelPath
import Rollup.Store

/-!
# Settings

Settings are texts under fixed keys. A value that cannot be read counts as absent, so that a
default takes its place.
-/

namespace Rollup

/-- How hierarchy files are imported. -/
structure ImportOptions where
  standardWindow : Window := Window.standard
  legacyWindow : Window := Window.legacy
  /-- Whether all references of the project are resolved after an import. -/
  resolveAfterImport : Bool := true
  deriving DecidableEq, Repr

/-- The level window of a dialect. -/
def ImportOptions.window (o : ImportOptions) : Dialect → Window
  | .standard => o.standardWindow
  | .legacy => o.legacyWindow

namespace Settings

/-! ## Keys -/

def patternConsistencyThreshold : String := "pattern_consistency_threshold"
def namingPattern : String := "naming_pattern"
def disabledChecks : String := "disabled_checks"
def standardLevelWindow : String := "standard_level_window"
def legacyLevelWindow : String := "legacy_level_window"
def resolveAfterImport : String := "resolve_after_import"
def syntheticXrefStart : String := "synthetic_xref_start"
def exportLevels : String := "export_levels"

/-- All keys. -/
def keys : List String :=
  [patternConsistencyThreshold, namingPattern, disabledChecks, standardLevelWindow,
   legacyLevelWindow, resolveAfterImport, syntheticXrefStart, exportLevels]

/-! ## Reading values -/

/-- The kinds of findings in a comma-separated list of their names; unknown names are ignored. -/
def disabledKinds (raw : String) : List FindingKind :=
  (Text.split ',' raw).filterMap fun part => FindingKind.ofName? (Text.lower (Text.trim part))

/-- A share between zero and one. -/
def share? (raw : String) : Option Binary64 :=
  (Literal.plainNumber? (Text.trim raw)).filter fun x =>
    Binary64.zero ≤ x && x ≤ Binary64.ofRatio 1 1

/-- `true` or `false`, spelled just so. -/
def switch? (raw : String) : Option Bool :=
  let t := Text.trim raw
  if t = "true" then some true else if t = "false" then some false else none

/-- The settings of the inspection in a project. -/
def inspection (s : Store) (project : Option String) : InspectionSettings :=
  let defaults : InspectionSettings := {}
  { disabled := disabledKinds ((s.setting? project disabledChecks).getD "")
    threshold := ((s.setting? project patternConsistencyThreshold).bind share?).getD
      defaults.threshold
    namingPattern := (s.setting? project namingPattern).filter (!Text.isAllBlank ·) }

/-- The settings of imports in a project. -/
def importOptions (s : Store) (project : Option String) : ImportOptions :=
  let defaults : ImportOptions := {}
  { standardWindow := ((s.setting? project standardLevelWindow).bind Window.read?).getD
      defaults.standardWindow
    legacyWindow := ((s.setting? project legacyLevelWindow).bind Window.read?).getD
      defaults.legacyWindow
    resolveAfterImport := ((s.setting? project resolveAfterImport).bind switch?).getD
      defaults.resolveAfterImport }

/-- The settings of exports in a project; the number of levels is brought into its range. -/
def exportOptions (s : Store) (project : Option String) : ExportOptions :=
  let defaults : ExportOptions := {}
  let levels := ((s.setting? project exportLevels).bind fun raw =>
    Literal.plainNat? (Text.trim raw)).getD defaults.maxLevels
  { syntheticXrefStart := ((s.setting? project syntheticXrefStart).bind fun raw =>
      Literal.plainInt? (Text.trim raw)).getD defaults.syntheticXrefStart
    maxLevels := max 1 (min levels Column.maxLevels) }

end Settings

end Rollup

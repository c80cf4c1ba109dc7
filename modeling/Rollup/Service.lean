import Rollup.Export.Mappings
import Rollup.Files
import Rollup.Import
import Rollup.MappingImport
import Rollup.Profile
import Rollup.Resolution
import Rollup.Settings

/-!
# The service

What callers can do with a store. Each call takes the store and answers either the store after it
together with its result, or an error; a call that fails changes nothing.
-/

namespace Rollup

/-- What an import of a hierarchy file did. -/
structure ImportReport where
  detection : Detection
  dialect : Dialect
  summary : Summary
  resolution : Option ResolutionReport
  deriving DecidableEq, Repr

/-- What the inspection of a project found. -/
structure InspectionReport where
  project : String
  findings : List Finding
  deriving Repr

/-- The counts of the findings. -/
def InspectionReport.summary (r : InspectionReport) : FindingSummary :=
  FindingSummary.ofFindings r.findings

namespace Service

/-! ## Projects and files -/

/-- Creates a project unless it is stored already. Its name defaults to its id. -/
def initProject (s : Store) (id name : String) : Except ServiceError (Store × Project) :=
  let id := Text.trim id
  if id = "" then .error (.invalidInput "project id is empty")
  else match s.project? id with
    | some p => .ok (s, p)
    | none =>
      let p : Project := ⟨id, if Text.isAllBlank name then id else Text.trim name⟩
      .ok (s.addProject p, p)

/-- Fails unless the project is stored. -/
def requireProject (s : Store) (id : String) : Except ServiceError Unit :=
  if s.hasProject id then .ok () else .error (.unknownProject id)

/-- The table in a file. -/
def readTable (path : String) (place : Files.Place) : Except ServiceError Table :=
  (Table.ofPlace path place).mapError .ofImport

/-- The table of a CSV text. -/
def readText (text : String) : Except ServiceError Table :=
  (Table.ofText text).mapError .ofImport

/-! ## Hierarchies -/

/-- Resolves all references of a project. -/
def resolve (s : Store) (project : String) : Except ServiceError (Store × ResolutionReport) :=
  (Resolution.project .permissive s project).mapError .ofImport

/-- Ends an import: resolves the references of the project if that is set, and reports. -/
def finishImport (s : Store) (project : String) (detection : Detection) (d : Dialect)
    (imported : Store × Summary) : Except ServiceError (Store × ImportReport) :=
  if (Settings.importOptions s (some project)).resolveAfterImport then
    (resolve imported.1 project).map fun r => (r.1, ⟨detection, d, imported.2, some r.2⟩)
  else .ok (imported.1, ⟨detection, d, imported.2, none⟩)

/-- Imports a table into a project, in the given dialect or the one that its headers show, where
    repeated labels are searched in the given order. -/
def importTableIn (order : TotalPlan.SearchOrder) (s : Store) (project : String) (t : Table)
    (dialect : Option Dialect) : Except ServiceError (Store × ImportReport) := do
  requireProject s project
  let detection := Format.detect t.headers
  match dialect.or (Dialect.ofFormat? detection.format) with
  | none => throw (.ofImport (.notAHierarchy detection.format))
  | some d =>
    let options := Settings.importOptions s (some project)
    let imported ←
      (Import.tableIn order .permissive s project d (options.window d) t).mapError .ofImport
    finishImport s project detection d imported

/-- Imports a table into a project, in the given dialect or the one that its headers show. -/
def importTable (s : Store) (project : String) (t : Table) (dialect : Option Dialect) :
    Except ServiceError (Store × ImportReport) :=
  importTableIn .asUsed s project t dialect

/-- The hierarchy file of a project. -/
def exportHierarchy (s : Store) (project : String) : Except ServiceError String := do
  requireProject s project
  return Export.hierarchy (s.nodesOf project) (Settings.exportOptions s (some project))

/-! ## Mappings -/

/-- Imports a table of mappings into a project. -/
def importMappings (s : Store) (project : String) (t : Table) :
    Except ServiceError (Store × Summary) :=
  let format := (Format.detect t.headers).format
  if format = .mapping then (MappingImport.table .permissive s project t).mapError .ofImport
  else .error (.unrecognizedFormat ("expected a mapping file, detected " ++ format.name))

/-- The mapping file of a project. -/
def exportMappings (s : Store) (project : String) : Except ServiceError String := do
  requireProject s project
  return Export.mappings (s.nodesOf project)

/-! ## Inspection -/

/-- Inspects a project. -/
def analyze (s : Store) (project : String) : Except ServiceError InspectionReport := do
  requireProject s project
  return ⟨project, inspect (Settings.inspection s (some project)) (s.nodesOf project)⟩

/-- The findings that a mapping would raise if it were put on a node. -/
def checkMapping (s : Store) (project hierarchyId : String) (candidate : SourceMapping) :
    Except ServiceError (List Finding) :=
  match s.node? project hierarchyId with
  | none => .error (.notFound ("hierarchy " ++ hierarchyId ++ " in project " ++ project))
  | some n => .ok (inspectChange n candidate (s.nodesOf project))

/-! ## Settings -/

/-- Sets a value, in one project or everywhere. -/
def setSetting (s : Store) (project : Option String) (key value : String) :
    Except ServiceError Store := do
  if !Settings.keys.contains key then
    throw (.invalidInput ("unknown config key '" ++ key ++ "' (known: " ++
      Text.join ", " Settings.keys ++ ")"))
  match project with
  | none => return s.setSetting .everywhere key value
  | some p =>
    requireProject s p
    return s.setSetting (.project p) key value

end Service

end Rollup

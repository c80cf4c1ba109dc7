import Rollup.Report

/-!
# Commands

What the command line can be asked to do, and what each command answers. A command works on a
store and on the file that it names; what it says is printed or written to a file.
-/

namespace Rollup

/-- A command. -/
inductive Command where
  | initProject (project name : String)
  | detect (file : String)
  | profile (file : String)
  | importHierarchy (project file : String) (dialect : Option Dialect)
  | importMappings (project file : String)
  | exportHierarchy (project : String) (output : Option String)
  | exportMappings (project : String) (output : Option String)
  | resolve (project : String)
  | analyze (project : String)
  | setSetting (key value : String) (project : Option String)
  | showSettings (project : Option String)
  deriving DecidableEq, Repr

namespace Command

/-- What a command says, and where to. -/
inductive Output where
  | printed (text : String)
  | written (path text : String)
  deriving DecidableEq, Repr

/-- A value printed on lines of its own. -/
def print (v : Value) : Output :=
  .printed (v.pretty 0 ++ "\n")

/-- A text for a file, or for printing if no file is given. -/
def deliver (output : Option String) (text : String) : Output :=
  match output with
  | none => .printed text
  | some path => .written path text

/-- The file that a command reads. -/
def source? : Command → Option String
  | detect file | profile file | importHierarchy _ file _ | importMappings _ file => some file
  | _ => none

/-- The settings as a value. -/
def settingsValue (s : Store) (project : Option String) : Value :=
  .ofDict .text (s.settingsShown project)

/-- Carries a command out; `place` is what the path of its file leads to. -/
def perform (place : Files.Place) (s : Store) : Command → Except ServiceError (Store × Output)
  | initProject project name => do
    let (s, p) ← Service.initProject s project name
    return (s, print p.toValue)
  | detect file => do
    let t ← Service.readTable file place
    return (s, print (Format.detect t.headers).toValue)
  | profile file => do
    let t ← Service.readTable file place
    return (s, print (Profile.ofTable t).toValue)
  | importHierarchy project file dialect => do
    let t ← Service.readTable file place
    let (s, report) ← Service.importTable s project t dialect
    return (s, print report.toValue)
  | importMappings project file => do
    let t ← Service.readTable file place
    let (s, summary) ← Service.importMappings s project t
    return (s, print summary.toValue)
  | exportHierarchy project output => do
    return (s, deliver output (← Service.exportHierarchy s project))
  | exportMappings project output => do
    return (s, deliver output (← Service.exportMappings s project))
  | resolve project => do
    let (s, report) ← Service.resolve s project
    return (s, print report.toValue)
  | analyze project => do
    return (s, print (← Service.analyze s project).toValue)
  | setSetting key value project => do
    let s ← Service.setSetting s project key value
    return (s, print (settingsValue s project))
  | showSettings project => return (s, print (settingsValue s project))

end Command

end Rollup

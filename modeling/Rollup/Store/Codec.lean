import Rollup.Node.Codec
import Rollup.Store
import Rollup.Value.Json

/-!
# Stores as text

A store is written to a file as one line of text, and read back from it.
-/

namespace Rollup

/-- The value form of a project. -/
def Project.toValue (p : Project) : Value :=
  .object [("projectId", .text p.id), ("name", .text p.name)]

/-- The project of a value. -/
def Project.ofValue? (v : Value) : Option Project := do
  return ⟨← v.get? Value.text? "projectId", ← v.get? Value.text? "name"⟩

/-- The value form of a scope: the id of its project, or null. -/
def Scope.toValue : Scope → Value
  | .everywhere => .null
  | .project id => .text id

/-- The scope of a value. -/
def Scope.ofValue? : Value → Option Scope
  | .null => some .everywhere
  | .text id => some (.project id)
  | _ => none

namespace Store

/-- The value form of the settings of one scope. -/
def scopeToValue (entry : Scope × Dict String) : Value :=
  .object [("scope", entry.1.toValue), ("values", .ofDict .text entry.2)]

/-- The settings of one scope of a value. -/
def scopeOfValue? (v : Value) : Option (Scope × Dict String) := do
  return (← v.get? Scope.ofValue? "scope", ← v.get? (Value.dictOf? Value.text?) "values")

/-- The value form of a store. -/
def toValue (s : Store) : Value :=
  .object [("projects", .list (s.projects.map Project.toValue)),
    ("nodes", .list (s.nodes.map Node.toValue)),
    ("settings", .list (s.settings.map scopeToValue))]

/-- The store of a value. -/
def ofValue? (v : Value) : Option Store := do
  return {
    projects := ← v.get? (Value.listOf? Project.ofValue?) "projects"
    nodes := ← v.get? (Value.listOf? Node.ofValue?) "nodes"
    settings := ← v.get? (Value.listOf? scopeOfValue?) "settings" }

/-- The text of a store. -/
def encode (s : Store) : String :=
  s.toValue.compact

/-- The store of a text; an empty text is an empty store. -/
def decode? (text : String) : Option Store :=
  if text = "" then some {} else (Value.parse? text).bind ofValue?

end Store

end Rollup

import Rollup.Node
import Rollup.Text.Runs

/-!
# References between nodes

Formulas may name their operands. A reference is looked up among the hierarchy ids first, then
among the names, then among the names in lower case; it is resolved only if exactly one hierarchy
answers.
-/

namespace Rollup

/-- What a reference can refer to: the id of a node, its trimmed name, and that in lower case. -/
structure Referent where
  hierarchyId : String
  name : String
  lowerName : String
  deriving DecidableEq, Repr

/-- The nodes that references can refer to. -/
abbrev Directory := List Referent

/-- The outcome of looking a reference up. -/
inductive Lookup where
  | alreadyId
  | resolved (hierarchyId : String)
  | ambiguous (hierarchyIds : List String)
  | unresolved
  deriving DecidableEq, Repr

namespace Directory

/-- The directory of a list of nodes. -/
def ofNodes (nodes : List Node) : Directory :=
  nodes.map fun n =>
    let name := Text.trim n.name
    ⟨n.hierarchyId, name, Text.lower name⟩

/-- Whether some node has the hierarchy id. -/
def hasId (d : Directory) (hierarchyId : String) : Bool :=
  d.any (·.hierarchyId == hierarchyId)

/-- The hierarchy ids, sorted and each once, of the nodes that a trimmed reference names. -/
def candidates (d : Directory) (reference : String) : List String :=
  let ids := fun (pick : Referent → Bool) =>
    Dict.sortedDistinct ((d.filter pick).map (·.hierarchyId))
  match ids (·.name == reference) with
  | [] => ids (·.lowerName == Text.lower reference)
  | exact => exact

/-- Looks a reference up. -/
def lookup (d : Directory) (reference : String) : Lookup :=
  let t := Text.trim reference
  if d.hasId t then .alreadyId
  else match d.candidates t with
    | [] => .unresolved
    | [h] => .resolved h
    | several => .ambiguous several

end Directory

/-- The outcome of resolving references: the new value, how many references were replaced, and
    warnings about those that could not be. -/
structure Resolved (α : Type) where
  value : α
  count : Nat
  warnings : List String
  deriving Repr

namespace Resolved

variable {α : Type}

/-- Nothing to replace. -/
def same (a : α) : Resolved α := ⟨a, 0, []⟩

/-- One reference replaced. -/
def changed (a : α) : Resolved α := ⟨a, 1, []⟩

/-- A reference that stays, with a warning. -/
def warned (a : α) (message : String) : Resolved α := ⟨a, 0, [message]⟩

/-- Resolves each element of a list. -/
def all (f : α → Resolved α) (xs : List α) : Resolved (List α) :=
  let rs := xs.map f
  ⟨rs.map (·.value), (rs.map (·.count)).foldl (· + ·) 0, rs.flatMap (·.warnings)⟩

end Resolved

namespace Directory

/-- The warning about a reference that several hierarchies answer. -/
def ambiguousMessage (owner role reference : String) (ids : List String) : String :=
  owner ++ ": " ++ role ++ " '" ++ reference ++ "' matches several hierarchies (" ++
    Text.join ", " ids ++ ")"

/-- The warning about a reference that no hierarchy answers. -/
def missingMessage (owner role reference : String) : String :=
  owner ++ ": " ++ role ++ " '" ++ reference ++ "' not found"

/-- Resolves the operand of a rule; a rule with a constant only has none. -/
def resolveRule (d : Directory) (owner : String) (r : Rule) : Resolved Rule :=
  if Text.isAllBlank r.operand then .same r
  else match d.lookup r.operand with
    | .alreadyId => .same r
    | .resolved h => .changed { r with operand := h }
    | .ambiguous ids => .warned r (ambiguousMessage owner "formula operand" r.operand ids)
    | .unresolved => .warned r (missingMessage owner "formula operand" r.operand)

/-- Resolves the child of a total, unless its id is that of a node. -/
def resolveChild (d : Directory) (owner : String) (c : TotalChild) : Resolved TotalChild :=
  if c.hierarchyId.any d.hasId then .same c
  else match d.lookup c.name with
    | .alreadyId => .changed { c with hierarchyId := some (Text.trim c.name) }
    | .resolved h => .changed { c with hierarchyId := some h }
    | .ambiguous ids => .warned c (ambiguousMessage owner "total formula child" c.name ids)
    | .unresolved => .warned c (missingMessage owner "total formula child" c.name)

/-- Resolves the rules of a formula. -/
def resolveFormula (d : Directory) (owner : String) (f : Formula) : Resolved Formula :=
  let rules := Resolved.all (d.resolveRule owner) f.rules
  ⟨{ f with rules := rules.value }, rules.count, rules.warnings⟩

/-- Resolves the children of a total. -/
def resolveTotal (d : Directory) (owner : String) (t : Total) : Resolved Total :=
  let children := Resolved.all (d.resolveChild owner) t.children
  ⟨{ t with children := children.value }, children.count, children.warnings⟩

/-- Resolves the references of an optional part. -/
def resolveOption {α : Type} (f : α → Resolved α) : Option α → Resolved (Option α)
  | none => .same none
  | some a => ⟨some (f a).value, (f a).count, (f a).warnings⟩

/-- Resolves the references of a filter, which are those of its total. -/
def resolveFilter (d : Directory) (owner : String) (f : Filter) : Resolved Filter :=
  let total := resolveOption (d.resolveTotal owner) f.total
  ⟨{ f with total := total.value }, total.count, total.warnings⟩

/-- Resolves all references of a node. -/
def resolveNode (d : Directory) (n : Node) : Resolved Node :=
  let formula := resolveOption (d.resolveFormula n.hierarchyId) n.formula
  let filter := resolveOption (d.resolveFilter n.hierarchyId) n.filter
  ⟨{ n with formula := formula.value, filter := filter.value }, formula.count + filter.count,
    formula.warnings ++ filter.warnings⟩

end Directory

end Rollup

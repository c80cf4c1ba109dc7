import Rollup.Buckets
import Rollup.RowGroup
import Rollup.Summary

/-!
# Totals

A formula label on the rows of several nodes, exactly one of which states an aggregation, is a
total: the aggregating node adds up the others. A label with several aggregations, or one that a
node repeats on several rows, is ambiguous and only warned about.

The warning about repeats names one node that repeats the label. Where there are several, it is the
first one that a search finds, and the search may go through the nodes in any order.
-/

namespace Rollup

/-- A total to be put on the node of a group; groups are named by their positions. -/
structure TotalPlan where
  label : String
  aggregation : Operation
  parent : Nat
  children : List Nat
  deriving DecidableEq, Repr

namespace TotalPlan

/-- One use of a label: the group of the row, and the aggregation that the row states. -/
structure Use where
  group : Nat
  aggregation : Option Operation
  deriving DecidableEq, Repr

/-- The uses of all labels in the order of the groups. -/
def uses (groups : List RowGroup) : List (String × Use) :=
  groups.zipIdx.flatMap fun p =>
    p.1.rows.filterMap fun row =>
      row.formula.groupName.map fun label => (label, ⟨p.2, row.formula.aggregation⟩)

/-- An order in which the groups that use a label are searched. -/
structure SearchOrder where
  list : (label : String) → List Nat → List Nat
  perm : ∀ label groups, (list label groups).Perm groups

/-- The order in which the groups use the label. -/
def SearchOrder.asUsed : SearchOrder :=
  ⟨fun _ groups => groups, fun _ _ => .rfl⟩

/-- The first group in the order of the search that uses a label more than once. -/
def repeated? (order : SearchOrder) (label : String) (us : List Use) : Option Nat :=
  (order.list label (distinct (us.map (·.group)))).find? fun g =>
    1 < (us.filter (·.group == g)).length

/-- The warning about a label that a group repeats. -/
def repeatMessage (groups : List RowGroup) (label : String) (g : Nat) : String :=
  "formula group '" ++ label ++ "': " ++ ("node '" ++ ((groups[g]?).map (·.name)).getD "" ++
    "' repeats the label on several rows, total formula not created")

/-- What a label amounts to: a plan, a warning, or nothing. -/
def ofLabel (order : SearchOrder) (groups : List RowGroup) (label : String) (us : List Use) :
    Option (Except String TotalPlan) :=
  let members := distinct (us.map (·.group))
  let aggregators := us.filterMap fun u => u.aggregation.map fun op => (u.group, op)
  if members.length < 2 then none
  else match aggregators with
    | [] => none
    | [(parent, op)] =>
      match repeated? order label us with
      | some g => some (.error (repeatMessage groups label g))
      | none => some (.ok ⟨label, op, parent, members.filter (· ≠ parent)⟩)
    | several =>
      some (.error ("formula group '" ++ label ++ "': " ++ toString several.length ++
        " rows carry AGGREGATION, total formula not created"))

/-- The totals of the groups in the order of their labels, and the warnings about ambiguous
    labels, where repeats are searched in the given order. -/
def planIn (order : SearchOrder) (groups : List RowGroup) : List TotalPlan × List String :=
  let outcomes := (buckets (uses groups)).filterMap fun b => ofLabel order groups b.1 b.2
  (outcomes.filterMap Except.toOption,
    outcomes.filterMap fun
      | .error message => some message
      | .ok _ => none)

/-- The totals and the warnings where repeats are searched in the order of the uses. -/
def plan (groups : List RowGroup) : List TotalPlan × List String :=
  planIn .asUsed groups

/-- The groups that take part in a total, the aggregating one first. -/
def participants (p : TotalPlan) : List Nat :=
  p.parent :: p.children

/-- The node with the total on it. -/
def attach (p : TotalPlan) (groups : List RowGroup) (n : Node) : Node :=
  let children := p.children.filterMap fun i =>
    (groups[i]?).map fun g => (⟨some g.hierarchyId, g.name⟩ : TotalChild)
  let filter := n.filter.getD {}
  { n with filter := some { filter with total := some ⟨p.label, n.name, p.aggregation, children⟩ } }

/-- The node without a formula that consists of the label alone: there the label only marked the
    total. -/
def stripLabel (p : TotalPlan) (n : Node) : Node :=
  match n.formula with
  | some f =>
    if f.groupName = p.label ∧ f.rules = [] ∧ f.expression = none then { n with formula := none }
    else n
  | none => n

end TotalPlan

end Rollup

import Mathlib.Data.List.Basic
import Rollup.Proofs.Export.Mirror
import Rollup.Proofs.Export.Restored

/-!
# Exports of kept nodes

A store that keeps a node changes nothing of its export but the constants of its formula.

Results:

* `exportOrder_congr`, `lineage_congr`: what orders and lineages depend on.
* `written_kept`, `keys_kept`, `customFlags_kept`: the sheet of kept nodes.
* `sharedCells_kept`: the cells of kept nodes.
* `hierarchy_kept`: nodes whose formulas are kept as they are have the export of the kept nodes.
-/

namespace Rollup

/-! ## Forests with the same links -/

namespace Forest

variable {f g : Forest} (parents : f.parents = g.parents)

include parents

theorem parent?_congr : f.parent? = g.parent? := by
  funext i
  rw [parent?, parent?, parents]

theorem children_congr : f.children = g.children := by
  funext i
  rw [children, children, parents]

variable (size : f.size = g.size)

include size

theorem lineage_congr : f.lineage = g.lineage := by
  have climb_congr : ∀ steps chain, f.climb steps chain = g.climb steps chain := by
    intro steps
    induction steps with
    | zero => intro chain; rfl
    | succ steps ih =>
      intro chain
      rw [climb, climb, parent?_congr parents]
      simp only [ih]
  funext i
  rw [lineage, lineage, size, climb_congr]

variable (sort : f.sortKey = g.sortKey)

include sort

theorem exportOrder_congr : f.exportOrder = g.exportOrder := by
  have sorted : f.bySortOrder = g.bySortOrder := by
    funext positions
    have key : ∀ (e : Forest), e.bySortOrder positions =
        stableSort (fun i j => decide (e.sortKey i ≤ e.sortKey j)) positions := fun _ => rfl
    rw [key, key, sort]
  have offspring : f.offspring = g.offspring := by
    funext i
    rw [Forest.offspring, Forest.offspring, sorted, children_congr parents]
  have roots : f.roots = g.roots := by
    rw [Forest.roots, Forest.roots, sorted, parent?_congr parents, size]
  have walk_congr : ∀ steps stack order, f.walk steps stack order = g.walk steps stack order := by
    intro steps
    induction steps with
    | zero => intro stack order; rfl
    | succ steps ih =>
      intro stack order
      cases stack with
      | nil => rfl
      | cons i stack => rw [walk, walk, offspring, ih, ih]
  rw [exportOrder, exportOrder, size, roots, walk_congr]

end Forest

/-- Links depend on the storage ids only. -/
theorem Forest.parents_congr {nodes nodes' : List Node}
    (same : (nodes.map fun n => (n.id, n.parentId)) = nodes'.map fun n => (n.id, n.parentId)) :
    (Forest.ofNodes nodes).parents = (Forest.ofNodes nodes').parents := by
  have position : ∀ ns : List Node, position? ns = fun id =>
      (((ns.map fun n => (n.id, n.parentId)).zipIdx.reverse.find? (·.1.1 == id)).map (·.2)) := by
    intro ns
    funext id
    rw [position?, List.zipIdx_map, ← List.map_reverse, List.find?_map, Option.map_map]
    rfl
  have parents : ∀ ns : List Node, (Forest.ofNodes ns).parents =
      (ns.map fun n => (n.id, n.parentId)).map fun q => q.2.bind (position? ns) := by
    intro ns
    rw [List.map_map]
    rfl
  rw [parents, parents, position nodes, position nodes', same]

theorem Forest.parents_kept (nodes : List Node) :
    (Forest.ofNodes (nodes.map Node.kept)).parents = (Forest.ofNodes nodes).parents := by
  refine parents_congr ?_
  rw [List.map_map]
  rfl

/-- A rule with its constant as a store keeps it. -/
def Rule.kept (r : Rule) : Rule :=
  { r with constant := r.constant.map Binary64.kept }

@[simp] theorem Rule.operation_kept (r : Rule) : r.kept.operation = r.operation := rfl

theorem Formula.rules_kept (f : Formula) : f.kept.rules = f.rules.map Rule.kept := rfl

namespace Export

/-! ## The sheet of kept nodes -/

section Sheet

variable (nodes : List Node) (options : ExportOptions)

theorem exportOrder_kept : (Forest.ofNodes (nodes.map Node.kept)).exportOrder =
    (Forest.ofNodes nodes).exportOrder := by
  refine Forest.exportOrder_congr (Forest.parents_kept nodes) (List.length_map _) ?_
  funext i
  change (((nodes.map Node.kept)[i]?).map (·.sortOrder)).getD 0 = ((nodes[i]?).map (·.sortOrder)).getD 0
  rw [List.getElem?_map, Option.map_map]
  rfl

theorem exported_kept : (Sheet.ofNodes (nodes.map Node.kept) options).exported =
    (Sheet.ofNodes nodes options).exported := by
  have eq : ∀ ns : List Node, (Sheet.ofNodes ns options).exported =
      (Forest.ofNodes ns).exportOrder.filter fun i => !((ns[i]?).map (·.isPlaceholder)).getD true :=
    fun _ => rfl
  rw [eq, eq, exportOrder_kept]
  refine List.filter_congr fun i _ => ?_
  rw [List.getElem?_map, Option.map_map]
  simp [Function.comp_def, Node.isPlaceholder_kept]

theorem written_kept : (Sheet.ofNodes (nodes.map Node.kept) options).written =
    (Sheet.ofNodes nodes options).written.map fun q => (q.1, q.2.kept) := by
  have eq : ∀ ns : List Node, (Sheet.ofNodes ns options).written =
      (Sheet.ofNodes ns options).exported.filterMap fun i => (ns[i]?).map fun n => (i, n) :=
    fun _ => rfl
  rw [eq, eq, exported_kept, List.map_filterMap]
  refine List.filterMap_congr fun i _ => ?_
  rw [List.getElem?_map, Option.map_map, Option.map_map]
  rfl

theorem keys_kept : (Sheet.ofNodes (nodes.map Node.kept) options).keys =
    (Sheet.ofNodes nodes options).keys := by
  rw [keys_ofNodes, keys_ofNodes, Sheet.storedKeys, Sheet.storedKeys, written_kept, List.map_map]
  rfl

theorem customFlags_kept : (Sheet.ofNodes (nodes.map Node.kept) options).customFlags =
    (Sheet.ofNodes nodes options).customFlags := by
  have eq : ∀ ns : List Node, (Sheet.ofNodes ns options).customFlags = Dict.sortedDistinct
      ((Sheet.ofNodes ns options).written.flatMap fun p => Dict.keys p.2.customFlags) :=
    fun _ => rfl
  rw [eq, eq, written_kept, List.flatMap_map]
  rfl

theorem childLabels_kept : (Sheet.ofNodes (nodes.map Node.kept) options).childLabels =
    (Sheet.ofNodes nodes options).childLabels := by
  have eq : ∀ ns : List Node, (Sheet.ofNodes ns options).childLabels =
      Sheet.totalLabels ((Sheet.ofNodes ns options).written.map (·.2)) := fun _ => rfl
  rw [eq, eq, written_kept, List.map_map, Sheet.totalLabels, Sheet.totalLabels, List.flatMap_map,
    List.flatMap_map]
  refine List.flatMap_congr fun q _ => ?_
  rw [Function.comp_apply, Node.total?_kept]
  have formula : q.2.kept.formula = q.2.formula.map Formula.kept := rfl
  rw [formula]
  cases q.2.formula <;> rfl

/-- The cells that all rows of a node share do not depend on what a store changes. -/
theorem sharedCells_kept (i : Nat) (n : Node) :
    (Sheet.ofNodes (nodes.map Node.kept) options).sharedCells i n.kept =
      (Sheet.ofNodes nodes options).sharedCells i n := by
  have forest : ∀ ns : List Node, (Sheet.ofNodes ns options).forest = Forest.ofNodes ns :=
    fun _ => rfl
  have parents := Forest.parents_kept nodes
  have size : (Forest.ofNodes (nodes.map Node.kept)).size = (Forest.ofNodes nodes).size :=
    List.length_map _
  have fields : ∀ {α : Type} (f : Node → α), (∀ n : Node, f n.kept = f n) → ∀ j : Nat,
      ((Forest.ofNodes (nodes.map Node.kept)).nodes[j]?).map f =
        ((Forest.ofNodes nodes).nodes[j]?).map f := by
    intro α f stays j
    change ((nodes.map Node.kept)[j]?).map f = (nodes[j]?).map f
    rw [List.getElem?_map, Option.map_map]
    exact congrArg (fun g => (nodes[j]?).map g) (funext stays)
  have parentCells : (Sheet.ofNodes (nodes.map Node.kept) options).parentCells i =
      (Sheet.ofNodes nodes options).parentCells i := by
    rw [Sheet.parentCells, Sheet.parentCells, forest, forest, Forest.parent?_congr parents, keys_kept]
    simp only [fields (fun n => (Column.parentId, n.hierarchyId)) fun _ => rfl]
  have levelCells : (Sheet.ofNodes (nodes.map Node.kept) options).levelCells i n.kept =
      (Sheet.ofNodes nodes options).levelCells i n := by
    have levels : (Sheet.ofNodes (nodes.map Node.kept) options).levels =
      (Sheet.ofNodes nodes options).levels := rfl
    rw [Sheet.levelCells, Sheet.levelCells, forest, forest, Forest.lineage_congr parents size, levels]
    simp only [fields (·.name) fun _ => rfl]
    rfl
  have flagCells : (Sheet.ofNodes (nodes.map Node.kept) options).flagCells i n.kept =
      (Sheet.ofNodes nodes options).flagCells i n := by
    rw [Sheet.flagCells, Sheet.flagCells, forest, forest, Forest.children_congr parents]
    rfl
  have filters : (n.kept.filter.map (·.groups)).getD [] = (n.filter.map (·.groups)).getD [] :=
    n.filterGroups_kept
  rw [Sheet.sharedCells, Sheet.sharedCells, keys_kept, parentCells, levelCells, flagCells, filters,
    customFlags_kept]
  rfl

end Sheet

/-! ## Kept nodes can be exported -/

theorem exportable_kept_node {n : Node} (h : n.Exportable) : n.kept.Exportable := by
  have rules : ∀ {f : Formula}, n.kept.formula = some f → ∀ r ∈ f.rules, ∃ g, n.formula = some g ∧
      ∃ r' ∈ g.rules, r = r'.kept := by
    intro f hf r hr
    obtain ⟨g, hg, rfl⟩ := Option.map_eq_some_iff.mp (show n.formula.map Formula.kept = some f from hf)
    obtain ⟨r', hr', eq⟩ := List.mem_map.mp hr
    exact ⟨g, hg, r', hr', eq.symm⟩
  refine ⟨by rw [Node.isPlaceholder_kept, h.described], h.hierarchyId, h.name, h.description,
    h.sortOrder, h.levelSorts, h.xrefKey, h.flagNames, h.flagOrder, ?_, ?_, ?_, ?_, ?_⟩
  · rw [Node.filterGroups_kept]
    exact h.filterNames
  · rw [Node.filterGroups_kept]
    exact h.filterValues
  · rw [Node.filterGroups_kept]
    exact h.filterOrder
  · intro f hf r hr
    obtain ⟨g, hg, r', hr', rfl⟩ := rules hf r hr
    exact h.precedences g hg r' hr'
  · intro f hf r hr x hx
    obtain ⟨g, hg, r', hr', rfl⟩ := rules hf r hr
    obtain ⟨y, hy, rfl⟩ := Option.map_eq_some_iff.mp hx
    exact Binary64.canonical_kept (h.constants g hg r' hr' y hy)

/-- A store keeps exportable nodes exportable. -/
theorem Exportable.kept {nodes : List Node} (h : Exportable nodes) :
    Exportable (nodes.map Node.kept) := by
  have fields : ∀ {α : Type} (f : Node → α), (∀ n : Node, f n.kept = f n) →
      (nodes.map Node.kept).map f = nodes.map f := by
    intro α f stays
    rw [List.map_map]
    exact List.map_congr_left fun n _ => stays n
  have all : ∀ {P : Node → Prop}, (∀ n ∈ nodes, P n.kept) → ∀ n ∈ nodes.map Node.kept, P n := by
    intro P each n hn
    obtain ⟨m, hm, rfl⟩ := List.mem_map.mp hn
    exact each m hm
  have ids := fields (·.id) fun _ => rfl
  have hierarchyIds := fields (·.hierarchyId) fun _ => rfl
  have parents : ∀ a b, IsParent (nodes.map Node.kept) a b → IsParent nodes a b := by
    rintro a b ⟨n, hn, here, link⟩
    obtain ⟨m, hm, rfl⟩ := List.mem_map.mp hn
    exact ⟨m, hm, here, link⟩
  refine ⟨ids ▸ h.ids, hierarchyIds ▸ h.hierarchyIds, all fun n hn id link => ?_,
    fun id cycle => h.acyclic id (Relation.TransGen.mono parents _ _ cycle),
    all fun n hn => h.roots n hn, all fun n hn => exportable_kept_node (h.node n hn)⟩
  rw [ids]
  exact h.closed n hn id link

/-! ## Exports of kept nodes -/

/-- Nodes whose formulas are kept as they are have the export of the kept nodes. -/
theorem hierarchy_kept {nodes : List Node}
    (kept : ∀ n ∈ nodes, ∀ f, n.formula = some f → f.kept = f) (options : ExportOptions) :
    hierarchy (nodes.map Node.kept) options = hierarchy nodes options := by
  refine hierarchy_congr (customFlags_kept nodes options) (fun k => by rw [keys_kept]) ?_
  rw [written_kept, List.forall₂_map_right_iff, List.forall₂_same]
  intro q hq
  have formula : q.2.kept.formula = q.2.formula := by
    have eq : q.2.kept.formula = q.2.formula.map Formula.kept := rfl
    rw [eq]
    cases hf : q.2.formula with
    | none => rfl
    | some f => rw [Option.map_some, kept q.2 (List.mem_of_getElem? (getElem?_of_written hq)) f hf]
  refine ⟨sharedCells_kept nodes options q.1 q.2, ?_, fun key => ?_⟩
  · rw [Sheet.mainFormulaCells, Sheet.mainFormulaCells, formula, Node.total?_kept, childLabels_kept]
    rfl
  · rw [Sheet.extraFormulaCells, Sheet.extraFormulaCells, formula]

end Export

end Rollup

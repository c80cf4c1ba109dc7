import Mathlib.Data.List.Basic
import Rollup.Proofs.Export.Restored

/-!
# Sort values by level

An export writes the sort values of a node by its depth in the tree. An import reads them along the
level path, in which a name that repeats the one before gives no step. So a node with the name of its
parent loses the sort value of its level, and all values below it move up by one level.

Results:

* `levelOrders_of_id`: the sort values in the rows of an exported node.
* `levelSorts_copied`: the sort values that are stored for the copy of a node.
* `levelSorts_sameName`: they are not those of the levels if a node has the name of its parent.
-/

namespace Rollup

/-- The sort value in the order column at a position, counted from zero. -/
def Table.levelOrder? (t : Table) (row : Row) (k : Nat) : Option Int :=
  (t.cell? row (Column.levelOrder (k + 1))).bind Literal.int?

namespace Export

/-- The names of the ancestors of the node at a position and of the node itself, root first. -/
def chainNames (nodes : List Node) (i : Nat) : List String :=
  ((Forest.ofNodes nodes).lineage i).map fun j => ((nodes[j]?).map (·.name)).getD ""

/-- The levels of the node at a position, root first, without those whose name repeats the name of
    the level above. -/
def freshLevels (nodes : List Node) (i : Nat) : List Nat :=
  (List.range (chainNames nodes i).length).filter (LevelPath.IsFresh (chainNames nodes i))

/-- No level is left out iff no name stands next to its like. -/
theorem freshLevels_eq_range_iff {nodes : List Node} {i : Nat} :
    freshLevels nodes i = List.range (chainNames nodes i).length ↔
      (chainNames nodes i).IsChain (· ≠ ·) := by
  rw [← LevelPath.isFresh_iff_isChain, freshLevels, List.filter_eq_self]
  simp only [List.mem_range, decide_eq_true_eq]

/-! ## The rows of an export -/

theorem Sheet.mainFilling_mem (s : Sheet) {todo : List (Nat × Node)} {q : Nat × Node}
    (mem : q ∈ todo) : ∀ key : Nat → Int, s.mainFilling q ∈ s.fillingsFrom key todo := by
  induction todo with
  | nil => cases mem
  | cons r todo ih =>
    intro key
    rw [fillingsFrom, List.cons_append, List.mem_cons, List.mem_append]
    rcases List.mem_cons.mp mem with rfl | mem
    · exact Or.inl rfl
    · exact Or.inr (Or.inr (ih mem _))

section Rows

variable {nodes : List Node} (h : Legible nodes) {options : ExportOptions}

include h

/-- The sort values of a row are those of its node. -/
theorem levelOrder?_isRow {records : List (List String)} {i : Nat} {n : Node} {key : Int}
    {cells : Cells} {row : Row}
    (isRow : (Sheet.ofNodes nodes options).IsRow i n key cells row.cells) (node : n.Legible)
    {k : Nat} (bound : k < Column.maxLevels) :
    (Table.written (Sheet.ofNodes nodes options).layout records).levelOrder? row k =
      (Sheet.ofNodes nodes options).levelOrder i n k := by
  rw [Table.levelOrder?, Table.cell?_written (nodup_header h options), isRow.orders k bound]
  cases order : (Sheet.ofNodes nodes options).levelOrder i n k with
  | none => rw [Option.map_none, Option.getD_none, Table.nonBlank?_empty, Option.bind_none]
  | some x =>
    have plain : Literal.Plain (toString x) :=
      Literal.text?_of_numeral (Literal.numeral_toString x)
    rw [Option.map_some, Option.getD_some, Table.nonBlank?_of_plain plain, Option.bind_some,
      Literal.int?_toString (Sheet.inRange_of_levelOrder node order)]

/-- The hierarchy id in a row is that of its node. -/
theorem text?_isRow {records : List (List String)} {i : Nat} {n : Node} {key : Int}
    {cells : Cells} {row : Row}
    (isRow : (Sheet.ofNodes nodes options).IsRow i n key cells row.cells) (node : n.Legible) :
    (Table.written (Sheet.ofNodes nodes options).layout records).text? row Column.hierarchyId =
      some n.hierarchyId := by
  have cell : _ = n.hierarchyId :=
    isRow.cell (c := Column.hierarchyId) (by simp [Sheet.placeCells, Sheet.idCells])
  rw [Table.text?_written (nodup_header h options), cell, node.hierarchyId]

variable (fits : KeysFit nodes options) {i : Nat} {n : Node}
  (written : (i, n) ∈ (Sheet.ofNodes nodes options).written)

include fits written

/-- Every row with the hierarchy id of a node has the sort values of this node. -/
theorem levelOrders_of_id {row : Row}
    (mem : row ∈ (Table.written (Sheet.ofNodes nodes options).layout
      ((Sheet.ofNodes nodes options).records options)).rows)
    (id : (Table.written (Sheet.ofNodes nodes options).layout
      ((Sheet.ofNodes nodes options).records options)).text? row Column.hierarchyId =
        some n.hierarchyId) {k : Nat} (bound : k < Column.maxLevels) :
    (Table.written (Sheet.ofNodes nodes options).layout
      ((Sheet.ofNodes nodes options).records options)).levelOrder? row k =
        (Sheet.ofNodes nodes options).levelOrder i n k := by
  obtain ⟨p, mem', -, isRow⟩ := exists_filling h fits (Table.mem_rows_written mem)
  have node : p.node.Legible := h.of_written mem'
  rw [text?_isRow h isRow node, Option.some.injEq] at id
  have here : nodes[i]? = some n := getElem?_of_written written
  have there : nodes[p.position]? = some p.node := getElem?_of_written mem'
  obtain rfl : p.position = i := index_of_nodup_map h.hierarchyIds there here id
  obtain rfl : p.node = n := Option.some.inj (there.symm.trans here)
  exact levelOrder?_isRow h isRow node bound

/-- Every written node has a row. -/
theorem exists_row_of_id :
    ∃ row ∈ (Table.written (Sheet.ofNodes nodes options).layout
      ((Sheet.ofNodes nodes options).records options)).rows,
      (Table.written (Sheet.ofNodes nodes options).layout
        ((Sheet.ofNodes nodes options).records options)).text? row Column.hierarchyId =
          some n.hierarchyId := by
  obtain ⟨k, bound, filling⟩ := List.mem_iff_getElem.mp
    (Sheet.mainFilling_mem _ written ((Sheet.ofNodes nodes options).furtherKey options))
  have all := List.forall₂_iff_get.mp (isFilled_records h fits)
  have filled := all.2 k bound (all.1 ▸ bound)
  obtain ⟨row, mem, cells⟩ := Table.exists_row_written
    (l := (Sheet.ofNodes nodes options).layout) (List.getElem_mem (all.1 ▸ bound))
  refine ⟨row, mem, ?_⟩
  have isRow := filled.isRow
  rw [List.get_eq_getElem, List.get_eq_getElem, ← cells,
    show ((Sheet.ofNodes nodes options).fillings options)[k] = _ from filling] at isRow
  exact text?_isRow h isRow (h.of_written written)

end Rows

/-! ## The stored sort values -/

section Made

variable {nodes : List Node} (h : Exportable nodes) {options : ExportOptions} {project : String}
  {ids : List String} {made : List Node}
  (outcome : (plan nodes options .standard project).Outcome [] true [] ids made)

/-- Where the tree is not deeper than the level columns, they hold all names of the chain. -/
theorem levelNames_eq_chainNames {i : Nat}
    (shallow : ((Forest.ofNodes nodes).lineage i).length ≤ (Sheet.ofNodes nodes options).levels) :
    (Sheet.ofNodes nodes options).levelNames i = chainNames nodes i := by
  rw [Sheet.levelNames, forest_ofNodes, List.take_of_length_le shallow]
  rfl

include h outcome

/-- The sort values that are stored for a node of a shallow tree. -/
theorem levelSorts_shallow {i k : Nat} {n m : Node}
    (hq : (Sheet.ofNodes nodes options).written[k]? = some (i, n)) (hm : made[k]? = some m)
    (shallow : ((Forest.ofNodes nodes).lineage i).length ≤
      min (Sheet.ofNodes nodes options).levels 9) :
    m.levelSorts = (freshLevels nodes i).map ((Sheet.ofNodes nodes options).levelOrder i n) := by
  obtain ⟨columns, window⟩ := le_min_iff.mp shallow
  have place : (Forest.ofNodes nodes).nth k = i := nth_of_written h hq
  have length : (chainNames nodes i).length ≤ 9 := by
    rw [chainNames, List.length_map]
    exact window
  rw [levelSorts_fresh h outcome hm (place ▸ hq) place.symm, levelNames_eq_chainNames columns,
    Nat.min_eq_right length]
  rfl

/-- They are the values in each row of the node, without those of the levels left out. -/
theorem levelSorts_row (fits : KeysFit nodes options) {i k : Nat}
    {n m : Node} (hq : (Sheet.ofNodes nodes options).written[k]? = some (i, n))
    (hm : made[k]? = some m) (shallow : ((Forest.ofNodes nodes).lineage i).length ≤
      min (Sheet.ofNodes nodes options).levels 9) {row : Row}
    (mem : row ∈ (Table.written (Sheet.ofNodes nodes options).layout
      ((Sheet.ofNodes nodes options).records options)).rows)
    (id : (Table.written (Sheet.ofNodes nodes options).layout
      ((Sheet.ofNodes nodes options).records options)).text? row Column.hierarchyId =
        some n.hierarchyId) :
    m.levelSorts = (freshLevels nodes i).map ((Table.written (Sheet.ofNodes nodes options).layout
      ((Sheet.ofNodes nodes options).records options)).levelOrder? row) := by
  have written := List.mem_of_getElem? hq
  rw [levelSorts_shallow h outcome hq hm shallow]
  refine List.map_congr_left fun j hj =>
    (levelOrders_of_id h.legible fits written mem id ?_).symm
  have inside := List.mem_range.mp (List.mem_of_mem_filter hj)
  have columns : Column.maxLevels = 15 := rfl
  rw [chainNames, List.length_map] at inside
  omega

end Made

/-- An import of an export stores for the copy of each node the sort values that its rows have at
    the levels whose name does not repeat the name of the level above. So the stored values are
    those of all levels, root first, iff no node of the chain has the name of its parent. -/
theorem levelSorts_copied {nodes : List Node} (h : Exportable nodes) (size : nodes.length < 2 ^ 63)
    (options : ExportOptions) (start : Literal.inRange options.syntheticXrefStart = true)
    (shallow : ∀ i < nodes.length, ((Forest.ofNodes nodes).lineage i).length ≤
      min (Sheet.ofNodes nodes options).levels 9)
    {s : Store} {project : String} (known : s.hasProject project = true)
    (empty : s.nodesOf project = []) (ids : (s.nodes.map (·.id)).Nodup) :
    ∃ t s' summary, Table.ofText (hierarchy nodes options) = .ok t ∧
      Import.table .permissive s project .standard .standard t = .ok (s', summary) ∧
      summary.errors = [] ∧ (s'.nodesOf project).length = nodes.length ∧
      ∀ i n, nodes[i]? = some n →
        (∃ row ∈ t.rows, t.text? row Column.hierarchyId = some n.hierarchyId) ∧
        ∃ m ∈ s'.nodesOf project, m.hierarchyId = n.hierarchyId ∧
          (∀ m' ∈ s'.nodesOf project, m'.hierarchyId = n.hierarchyId → m' = m) ∧
          ∀ row ∈ t.rows, t.text? row Column.hierarchyId = some n.hierarchyId →
            m.levelSorts = (freshLevels nodes i).map (t.levelOrder? row) ∧
            (m.levelSorts = (List.range (chainNames nodes i).length).map (t.levelOrder? row) ↔
              (chainNames nodes i).IsChain (· ≠ ·)) := by
  have fits := keysFit_of_size options h.legible start size
  obtain ⟨ids', made, warnings, outcome, stored, run⟩ :=
    exists_outcome h fits .standard known empty ids
  refine ⟨_, _, _, ofText_hierarchy h.legible fits, run, rfl, by rw [stored, length_made h outcome], ?_⟩
  intro i n here
  have written := (mem_written h options).mpr here
  refine ⟨exists_row_of_id h.legible fits written, ?_⟩
  obtain ⟨k, hq⟩ := List.getElem?_of_mem written
  obtain ⟨m, -, -, -, hm, -⟩ := made_at h outcome hq
  have copy := isCopy_made h outcome fits hq hm
  rw [stored]
  refine ⟨m, List.mem_of_getElem? hm, copy.hierarchyId, fun m' hm' same => ?_, ?_⟩
  · exact List.inj_on_of_nodup_map (nodup_hierarchyId_made h outcome) hm'
      (List.mem_of_getElem? hm) (same.trans copy.hierarchyId.symm)
  intro row mem id
  have sorts := levelSorts_row h outcome fits hq hm
    (shallow i (List.getElem?_eq_some_iff.mp here).1) mem id
  refine ⟨sorts, ?_⟩
  rw [← freshLevels_eq_range_iff, sorts]
  constructor
  · intro all
    have length := congrArg List.length all
    rw [List.length_map, List.length_map] at length
    exact List.filter_sublist.eq_of_length length
  · intro all
    rw [all]

theorem levelSorts_copied_twoNodes : ∃ t s' summary,
    Table.ofText (hierarchy twoNodes {}) = .ok t ∧
      Import.table .permissive { projects := [⟨"B", "B"⟩] } "B" .standard .standard t =
        .ok (s', summary) ∧
      ∃ row ∈ t.rows, t.text? row Column.hierarchyId = some "GROSS" ∧
        ∃ m ∈ s'.nodesOf "B", m.hierarchyId = "GROSS" ∧
          m.levelSorts = (List.range 2).map (t.levelOrder? row) := by
  obtain ⟨t, s', summary, read, run, -, -, copies⟩ :=
    levelSorts_copied exportable_twoNodes (by decide) {} (by decide) (by decide +kernel)
      (show Store.hasProject { projects := [⟨"B", "B"⟩] } "B" = true from rfl) rfl List.nodup_nil
  obtain ⟨⟨row, mem, id⟩, m, hm, copied, -, sorts⟩ := copies 1 _ rfl
  exact ⟨t, s', summary, read, run, row, mem, id, m, hm, copied,
    (sorts row mem id).2.mpr (by decide +kernel)⟩

/-- A node below one with the same name, and a node below that. -/
def sameName : List Node :=
  [{ id := "1", hierarchyId := "A", projectId := "A", name := "Sales", sortOrder := 5 },
   { id := "2", hierarchyId := "B", projectId := "A", name := "Sales", parentId := some "1"
     isRoot := false, sortOrder := 7 },
   { id := "3", hierarchyId := "C", projectId := "A", name := "East", parentId := some "2"
     isRoot := false, sortOrder := 3 }]

theorem exportable_sameName : Exportable sameName := by
  refine ⟨by decide, by decide, by decide +kernel, ?_, by decide, ?_⟩
  · refine acyclic_of_rank (fun id => if id = "1" then 0 else if id = "2" then 1 else 2) ?_
    decide +kernel
  · intro n hn
    simp only [sameName, List.mem_cons, List.not_mem_nil, or_false] at hn
    rcases hn with rfl | rfl | rfl <;>
      exact ⟨by decide +kernel, by decide +kernel, by decide +kernel, by simp, by decide, by simp,
        by simp, by simp [Dict.keys], by simp [Dict.Ordered, Dict.keys], by decide, by decide,
        by decide, by simp, by simp⟩

/-- The sort value of the third level is stored as that of the second. -/
theorem levelSorts_sameName :
    ¬ ∀ nodes, Exportable nodes → (∀ i < nodes.length,
        ((Forest.ofNodes nodes).lineage i).length ≤ 9) →
      ∀ t s' summary, Table.ofText (hierarchy nodes {}) = .ok t →
        Import.table .permissive { projects := [⟨"B", "B"⟩] } "B" .standard .standard t =
          .ok (s', summary) →
        ∀ i n, nodes[i]? = some n → ∀ m ∈ s'.nodesOf "B", m.hierarchyId = n.hierarchyId →
          ∀ row ∈ t.rows, t.text? row Column.hierarchyId = some n.hierarchyId →
            m.levelSorts = (List.range ((Forest.ofNodes nodes).lineage i).length).map
              (t.levelOrder? row) := by
  intro claim
  have fits := keysFit_of_size {} exportable_sameName.legible (by decide) (by decide)
  have shallow : ∀ i < sameName.length, ((Forest.ofNodes sameName).lineage i).length ≤ 9 := by
    decide +kernel
  obtain ⟨ids, made, warnings, outcome, stored, run⟩ := exists_outcome exportable_sameName fits
    .standard (show Store.hasProject { projects := [⟨"B", "B"⟩] } "B" = true from rfl) rfl
    List.nodup_nil
  have here : sameName[2]? = some _ := rfl
  have written := (mem_written exportable_sameName {}).mpr here
  obtain ⟨k, hq⟩ := List.getElem?_of_mem written
  obtain ⟨m, -, -, -, hm, -⟩ := made_at exportable_sameName outcome hq
  obtain ⟨row, mem, id⟩ := exists_row_of_id exportable_sameName.legible fits written
  have three := claim sameName exportable_sameName shallow _ _ _
    (ofText_hierarchy exportable_sameName.legible fits) run 2 _ here m
    (by rw [stored]; exact List.mem_of_getElem? hm)
    (isCopy_made exportable_sameName outcome fits hq hm).hierarchyId row mem id
  have fresh : freshLevels sameName 2 = [0, 2] := by decide +kernel
  have two := levelSorts_row exportable_sameName outcome fits hq hm (by decide +kernel) mem id
  rw [two, fresh] at three
  have depth : ((Forest.ofNodes sameName).lineage 2).length = 3 := by decide +kernel
  rw [depth] at three
  cases congrArg List.length three

end Export

end Rollup

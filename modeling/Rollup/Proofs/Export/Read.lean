import Mathlib.Data.List.Basic
import Mathlib.Tactic.SplitIfs
import Rollup.Proofs.Export.Cells
import Rollup.Proofs.HierarchyRow
import Rollup.Proofs.Literal
import Rollup.Proofs.Number
import Rollup.Proofs.Table
import Rollup.Proofs.Text.Parts

/-!
# Reading the rows of an export

Every record of an export can be read, and the row says of its node what the node says of itself.

Results:

* `text?_written`: the texts of a written table.
* `typedParts_written`: cells with several values.
* `standardFormula_isRow`: the formula part of a row.
* `standardRow_of_legible`: every record is read, whatever the texts of the nodes are.
* `standardRow_isFilled`: the row that a record is read as.
* `customFlagColumns_eq`: the columns that are read as custom flags.
-/

namespace Rollup

theorem Except.mapM_eq_ok {ε α β : Type} {f : α → Except ε β} {g : α → β} {xs : List α}
    (all : ∀ a ∈ xs, f a = .ok (g a)) : xs.mapM f = .ok (xs.map g) := by
  induction xs with
  | nil => rfl
  | cons a xs ih =>
    rw [List.mapM_cons, all a (by simp), ih fun a' ha' => all a' (by simp [ha'])]
    rfl

namespace Table

/-! ## Cells of written tables -/

section Written

variable {l : Layout} {records : List (List String)} (nodup : l.header.Nodup)

theorem nonBlank?_of_plain {s : String} (plain : Literal.Plain s) : nonBlank? s = some s := by
  obtain ⟨trimmed, filled⟩ := Literal.text?_eq_some plain
  rw [nonBlank?, trimmed]
  exact if_neg filled

theorem nonBlank?_boolText (b : Bool) :
    nonBlank? (Literal.boolText b) = some (Literal.boolText b) := by
  cases b <;> decide +kernel

theorem bind_nonBlank? (s : String) : (nonBlank? s).bind Literal.text? = Literal.text? s := by
  unfold nonBlank? Literal.text?
  dsimp only
  by_cases blank : Text.trim s = ""
  · rw [if_pos blank, if_pos (Or.inl blank)]
    rfl
  · rw [if_neg blank, Option.bind_some, Text.trim_trim]

include nodup

/-- The text in a column is that of the cell of the record. -/
theorem text?_written (row : Row) (column : String) :
    (written l records).text? row column = Literal.text? (l.get row.cells column) := by
  rw [text?, cell?_written nodup, bind_nonBlank?]

theorem typed_written {α : Type} (read : String → Option α) (reason : String) {row : Row}
    {column : String} {a : α}
    (text : Literal.text? (l.get row.cells column) = some (l.get row.cells column))
    (fits : read (l.get row.cells column) = some a) :
    typed read reason (written l records) row column = .ok (some a) := by
  unfold typed
  rw [text?_written nodup, text]
  simp only [fits]

theorem typed_written_none {α : Type} (read : String → Option α) (reason : String) {row : Row}
    {column : String} (empty : l.get row.cells column = "") :
    typed read reason (written l records) row column = .ok none := by
  unfold typed
  rw [text?_written nodup, empty]
  rfl

theorem int_written {row : Row} {column : String} {k : Int} (fits : Literal.inRange k = true)
    (cell : l.get row.cells column = toString k) :
    (written l records).int row column = .ok (some k) := by
  refine typed_written nodup _ _ ?_ ?_
  · rw [cell, Literal.text?_of_numeral (Literal.numeral_toString k)]
  · rw [cell, Literal.int?_toString fits]

theorem bool_written {row : Row} {column : String} {b : Bool}
    (cell : l.get row.cells column = Literal.boolText b) :
    (written l records).bool row column = .ok (some b) := by
  refine typed_written nodup _ _ ?_ ?_
  · rw [cell, Literal.text?_boolText]
  · rw [cell, Literal.bool?_boolText]

theorem operation_written {row : Row} {column : String} {op : Operation}
    (cell : l.get row.cells column = op.keyword) :
    (written l records).operation row column = .ok (some op) := by
  refine typed_written nodup _ _ ?_ ?_
  · rw [cell, Operation.text?_keyword]
  · rw [cell, Operation.read?_keyword]

theorem parts_written (row : Row) (column : String) :
    (written l records).parts row column = valuesOf (l.get row.cells column) := by
  have cell : (written l records).cell? row column = nonBlank? (l.get row.cells column) :=
    cell?_written nodup row column
  unfold Table.parts valuesOf
  cases text : nonBlank? (l.get row.cells column) with
  | none => rw [cell, text]
  | some value => rw [cell, text]

/-- A cell with several values can be read if every value can. -/
theorem typedParts_written {α : Type} (read : String → Option α) (reason : String) {row : Row}
    {column : String}
    (fits : ∀ part ∈ valuesOf (l.get row.cells column), part ≠ "" → (read part).isSome = true) :
    typedParts read reason (written l records) row column =
      .ok ((valuesOf (l.get row.cells column)).map fun part =>
        if part = "" then none else read part) := by
  rw [typedParts, parts_written nodup]
  refine Except.mapM_eq_ok fun part hpart => ?_
  by_cases empty : part = ""
  · rw [if_pos empty, if_pos empty]
  · obtain ⟨a, ha⟩ := Option.isSome_iff_exists.mp (fits part hpart empty)
    rw [if_neg empty, if_neg empty, ha]

end Written

end Table

namespace Export

open Table

/-! ## Formula cells -/

/-- The formula part that a row with the given cells is read as. -/
def formulaPart (cells : Cells) : RowFormula where
  groupName := Literal.text? (lastValue cells Column.formulaGroupName)
  operation := (Literal.text? (lastValue cells Column.formulaOperation)).bind Operation.read?
  operationText := Literal.text? (lastValue cells Column.formulaOperation)
  operands := valuesOf (lastValue cells Column.formulaOperand)
  precedences := (valuesOf (lastValue cells Column.formulaPrecedence)).map fun part =>
    if part = "" then none else Literal.int? part
  constants := (valuesOf (lastValue cells Column.formulaConstant)).map fun part =>
    if part = "" then none else Literal.number? part
  expression := Literal.text? (lastValue cells Column.formulaExpression)
  aggregation := (Literal.text? (lastValue cells Column.aggregation)).bind Operation.read?

/-- A formula column is empty or holds one of the formula cells. -/
theorem lastValue_cases {cells : Cells} {key : Int}
    (kinds : ∀ q ∈ cells, q = (Column.xrefKey, toString key) ∨ IsFormulaCell q) {c : String}
    (column : c ∈ Column.formula) :
    lastValue cells c = "" ∨ IsFormulaCell (c, lastValue cells c) := by
  unfold lastValue
  cases found : cells.reverse.lookup c with
  | none => exact Or.inl rfl
  | some v =>
    rcases kinds (c, v) (List.mem_reverse.mp (mem_of_lookup found)) with same | cell
    · exact absurd column ((Column.disjoint_columns c).2.1 (Prod.mk.inj same).1).1
    · exact Or.inr cell

theorem trimmed_toString (k : Int) :
    Text.trim (toString k) = toString k ∧ Column.valueSeparator ∉ (toString k).toList :=
  have numeral := Literal.numeral_toString k
  ⟨Text.trim_of_solid numeral.solid, numeral.notMem (by decide)⟩

theorem trimmed_constant (x : Option Binary64) :
    Text.trim ((x.map Binary64.text).getD "") = (x.map Binary64.text).getD "" ∧
      Column.valueSeparator ∉ ((x.map Binary64.text).getD "").toList := by
  cases x with
  | none => exact ⟨Text.trim_of_solid fun c hc => absurd hc (by simp), by simp⟩
  | some x =>
    have numeral : Literal.Numeral x.text := Decimal.numeral_positional _
    exact ⟨Text.trim_of_solid numeral.solid, numeral.notMem (by decide)⟩

/-- Every value of a joined cell is one of the joined values. -/
theorem mem_valuesOf_joined {parts : List String}
    (values : ∀ part ∈ parts, Text.trim part = part ∧ Column.valueSeparator ∉ part.toList)
    {part : String} (mem : part ∈ valuesOf (Sheet.joined parts)) : part ∈ parts := by
  by_cases empty : Sheet.joined parts = ""
  · rw [empty, valuesOf_empty] at mem
    cases mem
  · rwa [Sheet.joined, valuesOf_join values empty] at mem

/-! ## The cells of a row -/

section Row

variable {nodes : List Node} (h : Legible nodes) {options : ExportOptions} {i : Nat} {n : Node}
  {key : Int} {cells : Cells} {row : Row}
  (records : List (List String))
  (isRow : (Sheet.ofNodes nodes options).IsRow i n key cells row.cells)

include h isRow

theorem formulaText_isRow {c : String} (hc : c ∈ Column.formula) :
    (written (Sheet.ofNodes nodes options).layout records).text? row c =
      Literal.text? (lastValue cells c) := by
  rw [text?_written (nodup_header h options), isRow.formula c hc]

theorem operation_isRow {c : String} (named : c = Column.formulaOperation ∨ c = Column.aggregation) :
    (written (Sheet.ofNodes nodes options).layout records).operation row c =
      .ok ((Literal.text? (lastValue cells c)).bind Operation.read?) := by
  have nodup := nodup_header h options
  have column : c ∈ Column.formula := by rcases named with rfl | rfl <;> simp [Column.formula]
  have value := isRow.formula c column
  rcases lastValue_cases isRow.kinds column with empty | cell
  · rw [empty] at value ⊢
    exact typed_written_none nodup _ _ value
  · obtain ⟨op, keyword⟩ := cell.value.1 named
    rw [keyword] at value ⊢
    rw [Operation.text?_keyword, Option.bind_some, Operation.read?_keyword]
    exact operation_written nodup value

theorem precedences_isRow :
    typedParts Literal.int? "not an integer"
        (written (Sheet.ofNodes nodes options).layout records) row Column.formulaPrecedence =
      .ok (formulaPart cells).precedences := by
  have column : Column.formulaPrecedence ∈ Column.formula := by simp [Column.formula]
  rw [typedParts_written (nodup_header h options), isRow.formula _ column]
  · rw [formulaPart]
  · rw [isRow.formula _ column]
    intro part hpart _
    rcases lastValue_cases isRow.kinds column with empty | cell
    · rw [empty, valuesOf_empty] at hpart
      cases hpart
    · obtain ⟨ks, fit, value⟩ := cell.value.2.1 rfl
      rw [value] at hpart
      have mem := mem_valuesOf_joined (by simpa using fun k _ => trimmed_toString k) hpart
      obtain ⟨k, hk, rfl⟩ := List.mem_map.mp mem
      rw [Literal.int?_toString (fit k hk)]
      rfl

theorem constants_isRow :
    typedParts Literal.number? "not a number"
        (written (Sheet.ofNodes nodes options).layout records) row Column.formulaConstant =
      .ok (formulaPart cells).constants := by
  have column : Column.formulaConstant ∈ Column.formula := by simp [Column.formula]
  rw [typedParts_written (nodup_header h options), isRow.formula _ column]
  · rw [formulaPart]
  · rw [isRow.formula _ column]
    intro part hpart ne
    rcases lastValue_cases isRow.kinds column with empty | cell
    · rw [empty, valuesOf_empty] at hpart
      cases hpart
    · obtain ⟨xs, finite, value⟩ := cell.value.2.2 rfl
      rw [value] at hpart
      have mem := mem_valuesOf_joined (by
        intro part hpart
        obtain ⟨x, -, rfl⟩ := List.mem_map.mp hpart
        exact trimmed_constant x) hpart
      obtain ⟨x, hx, rfl⟩ := List.mem_map.mp mem
      cases x with
      | none => exact absurd rfl ne
      | some x => exact Option.isSome_of_eq_some (Literal.number?_text (finite x hx))

/-- The formula part of a row is read off its cells. -/
theorem standardFormula_isRow :
    (written (Sheet.ofNodes nodes options).layout records).standardFormula row =
      .ok (formulaPart cells) := by
  have text := fun c => formulaText_isRow h records isRow (c := c)
  unfold standardFormula
  rw [operation_isRow h records isRow (Or.inl rfl), precedences_isRow h records isRow,
    constants_isRow h records isRow, operation_isRow h records isRow (Or.inr rfl),
    parts_written (nodup_header h options), text _ (by simp [Column.formula]),
    text _ (by simp [Column.formula]), text _ (by simp [Column.formula]),
    isRow.formula _ (by simp [Column.formula])]
  simp only [bind, Except.bind, pure, Except.pure, formulaPart]

theorem levels_isRow (named : ∀ n ∈ nodes, Literal.Plain n.name) :
    (written (Sheet.ofNodes nodes options).layout records).levels row =
      (List.range Column.maxLevels).map fun k =>
        ((Sheet.ofNodes nodes options).levelName i k).getD "" := by
  unfold Table.levels
  rw [Column.upTo_eq_map, List.map_map]
  refine List.map_congr_left fun k hk => ?_
  rw [Function.comp_apply, cell?_written (nodup_header h options),
    isRow.levels k (List.mem_range.mp hk)]
  cases name : (Sheet.ofNodes nodes options).levelName i k with
  | none => rw [Option.getD_none, nonBlank?_empty, Option.getD_none]
  | some v =>
    have plain : nonBlank? v = some v ∨ v = "" := by
      obtain ⟨j, -, rfl⟩ := Option.map_eq_some_iff.mp name
      cases there : (Sheet.ofNodes nodes options).forest.nodes[j]? with
      | none => exact Or.inr rfl
      | some m => exact Or.inl (nonBlank?_of_plain (named m (List.mem_of_getElem? there)))
    rcases plain with plain | rfl
    · rw [Option.getD_some, plain, Option.getD_some]
    · rw [Option.getD_some, nonBlank?_empty, Option.getD_none]

theorem standardSorts_isRow (node : n.Legible) :
    (written (Sheet.ofNodes nodes options).layout records).standardSorts row =
      .ok ((List.range Column.maxLevels).map ((Sheet.ofNodes nodes options).levelOrder i n)) := by
  have nodup := nodup_header h options
  have orders : (written (Sheet.ofNodes nodes options).layout records).levelSorts row
      Column.levelOrder = .ok ((Column.upTo Column.maxLevels).map fun k =>
        (Sheet.ofNodes nodes options).levelOrder i n (k - 1)) := by
    refine Except.mapM_eq_ok fun k hk => ?_
    rw [Column.upTo_eq_map] at hk
    obtain ⟨k, bound, rfl⟩ := List.mem_map.mp hk
    have cell := isRow.orders k (List.mem_range.mp bound)
    rw [Nat.add_sub_cancel]
    cases order : (Sheet.ofNodes nodes options).levelOrder i n k with
    | none =>
      rw [order] at cell
      exact typed_written_none nodup _ _ cell
    | some x =>
      rw [order] at cell
      exact int_written nodup (Sheet.inRange_of_levelOrder node order) cell
  have sorts : (written (Sheet.ofNodes nodes options).layout records).levelSorts row
      Column.levelSort = .ok ((Column.upTo Column.maxLevels).map fun _ => none) := by
    refine Except.mapM_eq_ok fun k hk => ?_
    have foreign : Column.levelSort k ∈ Column.foreign :=
      List.mem_append_right _ (List.mem_map_of_mem hk)
    exact typed_written_none nodup _ _
      (Layout.get_of_notMem (foreign_notMem_header h options foreign) _)
  have shifted : ((Column.upTo Column.maxLevels).map fun k =>
      (Sheet.ofNodes nodes options).levelOrder i n (k - 1)) =
      (List.range Column.maxLevels).map ((Sheet.ofNodes nodes options).levelOrder i n) := by
    rw [Column.upTo_eq_map, List.map_map]
    exact List.map_congr_left fun k _ => rfl
  unfold standardSorts
  rw [orders, sorts, shifted]
  change (if List.all _ Option.isNone = true then Except.ok _ else Except.ok _) = _
  split_ifs with none
  · -- columns without any sort value are read as the empty columns of older files
    congr 1
    rw [Column.upTo_eq_map, List.map_map]
    refine List.map_congr_left fun k hk => ?_
    rw [List.all_eq_true] at none
    exact (Option.isNone_iff_eq_none.mp (none _ (List.mem_map_of_mem hk))).symm
  · rfl

omit isRow in
theorem inlineMapping_isRow (row : Row) :
    (written (Sheet.ofNodes nodes options).layout records).inlineMapping row = .ok (none, none) := by
  have nodup := nodup_header h options
  have absent : ∀ c ∈ Column.foreign,
      (written (Sheet.ofNodes nodes options).layout records).text? row c = none := by
    intro c hc
    rw [text?_written nodup, Layout.get_of_notMem (foreign_notMem_header h options hc)]
    rfl
  unfold inlineMapping
  dsimp only
  rw [absent Column.sourceTable (by simp [Column.foreign]),
    absent Column.sourceColumn (by simp [Column.foreign])]
  rfl

theorem flags_isRow :
    (written (Sheet.ofNodes nodes options).layout records).flags row =
      .ok ⟨some n.flags.included, some n.flags.excluded, some n.flags.transformed,
        some n.flags.calculated, some n.flags.active,
        some (n.flags.leaf && !((Forest.ofNodes nodes).children i).any (· ≠ i))⟩ := by
  have nodup := nodup_header h options
  have flag : ∀ {c : String} {b : Bool}, (c, Literal.boolText b) ∈
      (Sheet.ofNodes nodes options).flagCells i n →
      (written (Sheet.ofNodes nodes options).layout records).bool row c = .ok (some b) :=
    fun mem => bool_written nodup (isRow.cell (List.mem_append_right _ mem))
  unfold Table.flags
  rw [flag (b := n.flags.included) (by simp [Sheet.flagCells]),
    flag (b := n.flags.excluded) (by simp [Sheet.flagCells]),
    flag (b := n.flags.transformed) (by simp [Sheet.flagCells]),
    flag (b := n.flags.calculated) (by simp [Sheet.flagCells]),
    flag (b := n.flags.active) (by simp [Sheet.flagCells]),
    flag (c := Column.isLeafNode)
      (b := n.flags.leaf && !((Forest.ofNodes nodes).children i).any (· ≠ i))
      (by simp [Sheet.flagCells, forest_ofNodes])]
  rfl

theorem filterGroups_isRow (node : n.Exportable) :
    (written (Sheet.ofNodes nodes options).layout records).filterGroups row = n.filterGroups := by
  have text : ∀ c ∈ Column.filterColumns,
      (written (Sheet.ofNodes nodes options).layout records).text? row c =
        Dict.get? c n.filterGroups := by
    intro c hc
    rw [text?_written (nodup_header h options), isRow.filters c hc]
    cases found : Dict.get? c n.filterGroups with
    | none => rfl
    | some v =>
      have plain : Literal.Plain v :=
        node.filterValues (c, v) ((Dict.get?_eq_some_iff node.filterOrder).mp found)
      rw [Option.getD_some]
      exact plain
  have entries : ((Column.upTo Column.filterGroupCount).filterMap fun k =>
      ((written (Sheet.ofNodes nodes options).layout records).text? row (Column.filterGroup k)).map
        fun v => (Column.filterGroup k, v)) =
      Column.filterColumns.filterMap fun c => (Dict.get? c n.filterGroups).map fun v => (c, v) := by
    rw [Column.filterColumns, List.filterMap_map]
    refine List.filterMap_congr fun k hk => ?_
    rw [text _ (List.mem_map_of_mem hk)]
    rfl
  have nodup := Column.nodup_filterColumns.sublist
    (map_fst_filterMap Column.filterColumns fun c => Dict.get? c n.filterGroups)
  unfold Table.filterGroups
  rw [entries]
  refine Dict.ext_get? (Dict.ordered_ofList _) node.filterOrder fun k => ?_
  rw [Dict.get?_ofList nodup, lookup_filterMap]
  by_cases mem : k ∈ Column.filterColumns
  · rw [if_pos (by simpa using mem)]
  · rw [if_neg (by simpa using mem), eq_comm, Dict.get?_eq_none_iff]
    exact fun known => mem (node.filterNames k known)

theorem customFlags_isRow :
    (written (Sheet.ofNodes nodes options).layout records).customFlags row
        (Sheet.ofNodes nodes options).customFlags =
      (Sheet.ofNodes nodes options).customFlags.map fun flag =>
        (flag, (Dict.get? flag n.customFlags).getD false) := by
  have value : ∀ flag ∈ (Sheet.ofNodes nodes options).customFlags,
      (((written (Sheet.ofNodes nodes options).layout records).cell? row flag).bind Literal.bool?).map
        (fun b => (flag, b)) = some (flag, (Dict.get? flag n.customFlags).getD false) := by
    intro flag hflag
    have kept := (isName_of_mem_customFlags h options hflag).kept
    have cell := (Prod.mk.inj (isRow.flags flag hflag)).2
    rw [CustomFlags.get?, kept] at cell
    rw [cell?_written (nodup_header h options), cell, nonBlank?_boolText, Option.bind_some,
      Literal.bool?_boolText, Option.map_some]
  have ordered : Dict.Ordered ((Sheet.ofNodes nodes options).customFlags.map fun flag =>
      (flag, (Dict.get? flag n.customFlags).getD false)) := by
    rw [Dict.Ordered, Dict.keys, List.map_map]
    simpa [Function.comp_def] using sorted_customFlags nodes options
  unfold Table.customFlags
  rw [List.filterMap_congr value, List.filterMap_eq_map']
  exact Dict.ofList_of_ordered ordered

/-! ## Rows -/

end Row

/-- The row that a filled record is read as. -/
def Sheet.row (s : Sheet) (number : Nat) (p : Filling) : HierarchyRow where
  number := number
  hierarchyId := some p.node.hierarchyId
  name := some p.node.name
  description := p.node.description
  parentHierarchyId := (s.forest.parent? p.position).bind fun j =>
    (s.forest.nodes[j]?).map (·.hierarchyId)
  isRoot := some p.node.isRoot
  sortOrder := some p.node.sortOrder
  xrefKey := some p.key
  parentXrefKey := (s.forest.parent? p.position).bind fun j => s.keys.lookup j
  levels := (List.range Column.maxLevels).map fun k => (s.levelName p.position k).getD ""
  levelSorts := (List.range Column.maxLevels).map (s.levelOrder p.position p.node)
  flags := ⟨some p.node.flags.included, some p.node.flags.excluded, some p.node.flags.transformed,
    some p.node.flags.calculated, some p.node.flags.active,
    some (p.node.flags.leaf && !(s.forest.children p.position).any (· ≠ p.position))⟩
  customFlags := s.customFlags.map fun flag =>
    (flag, (Dict.get? flag p.node.customFlags).getD false)
  formula := formulaPart p.cells
  filterGroups := p.node.filterGroups

section Filled

variable {nodes : List Node} {options : ExportOptions}
  (fits : KeysFit nodes options) {p : Filling} {row : Row}
  (filled : IsFilled nodes options p row.cells) (records : List (List String))

include fits filled

/-- Every record of an export can be read, whatever the texts of the nodes are. -/
theorem standardRow_of_legible (h : Legible nodes) :
    let t := written (Sheet.ofNodes nodes options).layout records
    t.standardRow (Sheet.ofNodes nodes options).customFlags row =
      .ok { (Sheet.ofNodes nodes options).row row.number p with
        name := t.text? row Column.hierarchyName
        description := t.text? row Column.description
        parentHierarchyId := t.text? row Column.parentId
        levels := t.levels row
        filterGroups := t.filterGroups row } := by
  obtain ⟨mem, range, isRow⟩ := filled
  have node := h.of_written mem
  set s := Sheet.ofNodes nodes options with hs
  intro t
  have nodup : s.layout.header.Nodup := nodup_header h options
  have hierarchyId : t.text? row Column.hierarchyId = some p.node.hierarchyId := by
    have cell : s.layout.get row.cells Column.hierarchyId = p.node.hierarchyId :=
      isRow.cell (by simp [Sheet.placeCells, Sheet.idCells])
    rw [text?_written nodup, cell]
    exact node.hierarchyId
  have parentXrefKey : t.int row Column.parentXrefKey =
      .ok ((s.forest.parent? p.position).bind fun j => s.keys.lookup j) := by
    have cell := isRow.place Column.parentXrefKey (by simp [Column.place])
    rw [Sheet.lookup_parentXrefKey] at cell
    cases parent : (s.forest.parent? p.position).bind fun j => s.keys.lookup j with
    | none =>
      rw [parent] at cell
      exact typed_written_none nodup _ _ cell
    | some k =>
      obtain ⟨j, -, found⟩ := Option.bind_eq_some_iff.mp parent
      rw [parent] at cell
      exact int_written nodup (fits.inRange_key found) cell
  have sorts := standardSorts_isRow h records isRow node
  have mapping : t.inlineMapping row = .ok (none, none) := inlineMapping_isRow h records row
  have isRoot : t.bool row Column.isRoot = .ok (some p.node.isRoot) :=
    bool_written nodup (isRow.cell (by simp [Sheet.placeCells, Sheet.idCells]))
  have sortOrder : t.int row Column.sortOrder = .ok (some p.node.sortOrder) :=
    int_written nodup node.sortOrder (isRow.cell (by simp [Sheet.placeCells, Sheet.idCells]))
  have xrefKey : t.int row Column.xrefKey = .ok (some p.key) := int_written nodup range isRow.key
  have flags := flags_isRow h records isRow
  have customFlags := customFlags_isRow h records isRow
  have formula := standardFormula_isRow h records isRow
  unfold standardRow
  rw [sorts, mapping, isRoot, sortOrder, xrefKey, parentXrefKey, flags, formula, hierarchyId,
    customFlags]
  rfl

/-- Where the texts are in the form in which they are kept, they are read back too. -/
theorem standardRow_isFilled (h : Exportable nodes) :
    (written (Sheet.ofNodes nodes options).layout records).standardRow
        (Sheet.ofNodes nodes options).customFlags row =
      .ok ((Sheet.ofNodes nodes options).row row.number p) := by
  rw [standardRow_of_legible fits filled records h.legible]
  obtain ⟨mem, -, isRow⟩ := filled
  set s := Sheet.ofNodes nodes options with hs
  set t := written s.layout records with ht
  have nodup : s.layout.header.Nodup := nodup_header h.legible options
  have node := h.node p.node (List.mem_of_getElem? (getElem?_of_written mem))
  have name : t.text? row Column.hierarchyName = some p.node.name := by
    have cell : s.layout.get row.cells Column.hierarchyName = p.node.name :=
      isRow.cell (by simp [Sheet.placeCells, Sheet.idCells])
    rw [ht, text?_written nodup, cell]
    exact node.name
  have description : t.text? row Column.description = p.node.description := by
    have cell : s.layout.get row.cells Column.description = p.node.description.getD "" :=
      isRow.cell (by simp [Sheet.placeCells, Sheet.idCells])
    rw [ht, text?_written nodup, cell]
    cases found : p.node.description with
    | none => rfl
    | some d => exact node.description d found
  have parentId : t.text? row Column.parentId = (s.forest.parent? p.position).bind fun j =>
      (s.forest.nodes[j]?).map (·.hierarchyId) := by
    rw [ht, text?_written nodup, isRow.place _ (by simp [Column.place]), Sheet.lookup_parentId]
    cases parent : (s.forest.parent? p.position).bind fun j =>
        (s.forest.nodes[j]?).map (·.hierarchyId) with
    | none => rfl
    | some id =>
      obtain ⟨j, -, named⟩ := Option.bind_eq_some_iff.mp parent
      obtain ⟨m, there, rfl⟩ := Option.map_eq_some_iff.mp named
      exact (h.node m (List.mem_of_getElem? (l := nodes) there)).hierarchyId
  have levels := levels_isRow h.legible records isRow fun n hn => (h.node n hn).name
  have filterGroups := filterGroups_isRow h.legible records isRow node
  rw [name, description, parentId, levels, filterGroups]
  rfl

end Filled

/-! ## The table of an export -/

/-- Columns collected one by one, if they are distinct, are filtered. -/
theorem foldl_collect {chosen : String → Bool} {test : String → Nat → Bool} :
    ∀ (columns : List (String × Nat)) (found : List String),
      (∀ p ∈ columns, test p.1 p.2 = chosen p.1) → (found ++ columns.map (·.1)).Nodup →
      columns.foldl (fun found p =>
        if !found.contains p.1 && test p.1 p.2 then found ++ [p.1] else found) found =
        found ++ (columns.map (·.1)).filter chosen := by
  intro columns
  induction columns with
  | nil => intro found _ _; simp
  | cons p columns ih =>
    intro found agree nodup
    have fresh : found.contains p.1 = false := by
      rw [List.contains_eq_mem, decide_eq_false_iff_not]
      intro mem
      exact (List.nodup_append'.mp nodup).2.2 mem (by simp)
    have rest : ∀ q ∈ columns, test q.1 q.2 = chosen q.1 := fun q hq => agree q (by simp [hq])
    rw [List.foldl_cons, fresh, Bool.not_false, Bool.true_and, agree p (by simp), List.map_cons,
      List.filter_cons]
    rw [List.map_cons, ← List.singleton_append, ← List.append_assoc] at nodup
    split_ifs
    · rw [ih _ rest nodup, List.append_assoc, List.singleton_append]
    · refine ih _ rest (nodup.sublist ?_)
      exact (List.sublist_append_left _ _).append (List.Sublist.refl _)

section Exported

variable {nodes : List Node} (h : Legible nodes) {options : ExportOptions}
  (fits : KeysFit nodes options)

include h fits

theorem isFlagColumn_eq {flag : String} (mem : flag ∈ (Sheet.ofNodes nodes options).customFlags)
    {j : Nat} (stands : (Sheet.ofNodes nodes options).layout.header[j]? = some flag) :
    (written (Sheet.ofNodes nodes options).layout
      ((Sheet.ofNodes nodes options).records options)).isFlagColumn j = true := by
  set s := Sheet.ofNodes nodes options with hs
  set t := written s.layout (s.records options) with ht
  have nodup : s.layout.header.Nodup := nodup_header h options
  have index : t.index? flag = some j := by
    rw [ht, index?_written nodup, Layout.index?_of_getElem? nodup stands]
  have value : ∀ row ∈ t.rows, ∃ b, (row.cells[j]?).bind nonBlank? = some (Literal.boolText b) := by
    intro row hrow
    obtain ⟨p, -, -, isRow⟩ := exists_filling h fits (mem_rows_written hrow)
    have cell : t.cell? row flag = nonBlank? (s.layout.get row.cells flag) :=
      cell?_written nodup row flag
    rw [cell?, index, Option.bind_some] at cell
    refine ⟨(CustomFlags.get? flag p.node.customFlags).getD false, ?_⟩
    rw [cell, (Prod.mk.inj (isRow.flags flag mem)).2, nonBlank?_boolText]
  have some : t.columnValues j ≠ [] := by
    obtain ⟨q, hq, -⟩ := exists_written_of_customFlag mem
    obtain ⟨record, hrecord⟩ := List.exists_mem_of_ne_nil _ (records_ne_nil h fits hq)
    obtain ⟨row, hrow, -⟩ := exists_row_written (l := s.layout) hrecord
    obtain ⟨b, hb⟩ := value row hrow
    exact List.ne_nil_of_mem (List.mem_filterMap.mpr ⟨row, hrow, hb⟩)
  have all : (t.columnValues j).all (fun v => (Literal.bool? v).isSome) = true := by
    rw [List.all_eq_true]
    intro v hv
    obtain ⟨row, hrow, hv⟩ := List.mem_filterMap.mp hv
    obtain ⟨b, hb⟩ := value row hrow
    rw [← Option.some.inj (hb.symm.trans hv), Literal.bool?_boolText]
    rfl
  unfold isFlagColumn
  simp [some, all]

/-- The columns that are read as custom flags are those written for them. -/
theorem customFlagColumns_eq :
    (written (Sheet.ofNodes nodes options).layout
        ((Sheet.ofNodes nodes options).records options)).customFlagColumns .standard =
      (Sheet.ofNodes nodes options).customFlags := by
  set s := Sheet.ofNodes nodes options with hs
  set t := written s.layout (s.records options) with ht
  have nodup : s.layout.header.Nodup := nodup_header h options
  have standard : ∀ c ∈ Column.standard s.levels, c ∈ Column.known ∧ c ∉ s.customFlags := by
    intro c hc
    have known := Column.known_of_mem_standard (levels_le options) hc
    exact ⟨known, fun flag => (isName_of_mem_customFlags h options flag).free known⟩
  have chosen : ∀ p ∈ s.layout.header.zipIdx,
      t.isCustomFlag .standard p.1 p.2 = s.customFlags.contains p.1 := by
    intro p hp
    have stands := List.mem_zipIdx_iff_getElem?.mp hp
    unfold isCustomFlag
    rcases List.mem_append.mp (List.mem_of_getElem? stands) with mem | mem
    · obtain ⟨known, notFlag⟩ := standard p.1 mem
      simp [known, notFlag]
    · have name := isName_of_mem_customFlags h options mem
      have flag : t.isFlagColumn p.2 = true := isFlagColumn_eq h fits mem stands
      simp [name.ne, name.free, flag, mem]
  unfold customFlagColumns
  have columns : t.columns = s.layout.header := rfl
  rw [columns, foldl_collect _ [] chosen (by rwa [List.nil_append, List.zipIdx_map_fst]),
    List.nil_append, List.zipIdx_map_fst]
  have header : s.layout.header = Column.standard s.levels ++ s.customFlags := rfl
  have none : (Column.standard s.levels).filter (fun c => s.customFlags.contains c) = [] := by
    rw [List.filter_eq_nil_iff]
    intro c hc flag
    exact (standard c hc).2 (by simpa using flag)
  rw [header, List.filter_append, none, List.nil_append, List.filter_eq_self]
  intro c hc
  simpa using hc

end Exported

end Export

end Rollup

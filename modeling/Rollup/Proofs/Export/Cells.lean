import Mathlib.Data.List.Basic
import Mathlib.Data.List.Nodup
import Rollup.Proofs.Buckets
import Rollup.Proofs.Export.Sheet
import Rollup.Proofs.Layout

/-!
# The rows of an export

All rows of a node say what the node is and where it stands. They differ in their keys and in the
cells of the formula only, and what stands there can be read.

Results:

* `mem_sharedCells`, `get_sharedRow_place`, `get_sharedRow_level`: the cells that the rows of a
  node share, by their columns.
* `isRow_shared`: these cells as a row.
* `isRow_fill`: they stay when a key and formula cells are filled in.
* `isFilled_records`: the rows of an export.
-/

namespace Rollup.Export

/-! ## Formula cells -/

/-- A cell of a formula. What stands in a column of operations, integers or numbers is of that
    kind. -/
inductive IsFormulaCell : String × String → Prop
  | label (v : String) : IsFormulaCell (Column.formulaGroupName, v)
  | operands (v : String) : IsFormulaCell (Column.formulaOperand, v)
  | expression (v : String) : IsFormulaCell (Column.formulaExpression, v)
  | operation (op : Operation) : IsFormulaCell (Column.formulaOperation, op.keyword)
  | aggregation (op : Operation) : IsFormulaCell (Column.aggregation, op.keyword)
  | precedences (ks : List Int) (fit : ∀ k ∈ ks, Literal.inRange k = true) :
      IsFormulaCell (Column.formulaPrecedence, Sheet.joined (ks.map fun k => toString k))
  | constants (xs : List (Option Binary64)) (finite : ∀ x, some x ∈ xs → x.Canonical) :
      IsFormulaCell (Column.formulaConstant,
        Sheet.joined (xs.map fun x => (x.map Binary64.text).getD ""))

theorem IsFormulaCell.column {q : String × String} (h : IsFormulaCell q) :
    q.1 ∈ Column.formula := by
  cases h <;> simp [Column.formula]

/-- What stands in the columns of operations, integers and numbers. -/
theorem IsFormulaCell.value {c v : String} (h : IsFormulaCell (c, v)) :
    (c = Column.formulaOperation ∨ c = Column.aggregation → ∃ op : Operation, v = op.keyword) ∧
      (c = Column.formulaPrecedence → ∃ ks : List Int, (∀ k ∈ ks, Literal.inRange k = true) ∧
        v = Sheet.joined (ks.map fun k => toString k)) ∧
      (c = Column.formulaConstant → ∃ xs : List (Option Binary64),
        (∀ x, some x ∈ xs → x.Canonical) ∧
        v = Sheet.joined (xs.map fun x => (x.map Binary64.text).getD "")) := by
  cases h with
  | label | operands | expression =>
    simp [Column.formulaGroupName, Column.formulaOperand, Column.formulaExpression,
      Column.formulaOperation, Column.aggregation, Column.formulaPrecedence, Column.formulaConstant]
  | operation op | aggregation op =>
    refine ⟨fun _ => ⟨op, rfl⟩, ?_⟩
    simp [Column.formulaOperation, Column.aggregation, Column.formulaPrecedence,
      Column.formulaConstant]
  | precedences ks fit =>
    refine ⟨?_, fun _ => ⟨ks, fit, rfl⟩, ?_⟩ <;>
      simp [Column.formulaOperation, Column.aggregation, Column.formulaPrecedence,
        Column.formulaConstant]
  | constants xs finite =>
    refine ⟨?_, ?_, fun _ => ⟨xs, finite, rfl⟩⟩ <;>
      simp [Column.formulaOperation, Column.aggregation, Column.formulaPrecedence,
        Column.formulaConstant]

namespace Sheet

theorem isFormulaCell_ruleCells {operation : Operation} {rules : List Rule}
    (precedences : ∀ r ∈ rules, Literal.inRange r.precedence = true)
    (constants : ∀ r ∈ rules, ∀ x, r.constant = some x → x.Canonical) :
    ∀ q ∈ ruleCells operation rules, IsFormulaCell q := by
  intro q hq
  rcases List.mem_append.mp hq with hq | hq
  · simp only [List.mem_cons, List.not_mem_nil, or_false] at hq
    rcases hq with rfl | rfl | rfl
    · exact .operation operation
    · exact .operands _
    · have cell := IsFormulaCell.precedences (rules.map (·.precedence)) (by simpa using precedences)
      rwa [List.map_map] at cell
  · split at hq
    · have cell := IsFormulaCell.constants (rules.map (·.constant)) (by
        intro x hx
        obtain ⟨r, hr, same⟩ := List.mem_map.mp hx
        exact constants r hr x same)
      rw [List.map_map] at cell
      rw [List.mem_singleton.mp hq]
      exact cell
    · cases hq

theorem mem_rulesByOperation {rules : List Rule} {b : Operation × List Rule}
    (h : b ∈ rulesByOperation rules) : ∀ r ∈ b.2, r ∈ rules := by
  intro r hr
  obtain ⟨r', hr', eq⟩ := List.mem_map.mp ((mem_buckets h).2 r hr)
  exact (Prod.mk.inj eq).2 ▸ hr'

theorem isFormulaCell_bucket {n : Node} (h : n.Legible) {f : Formula} (hf : n.formula = some f)
    {b : Operation × List Rule} (mem : b ∈ rulesByOperation f.rules) :
    ∀ q ∈ ruleCells b.1 b.2, IsFormulaCell q :=
  isFormulaCell_ruleCells (fun r hr => h.precedences f hf r (mem_rulesByOperation mem r hr))
    fun r hr => h.constants f hf r (mem_rulesByOperation mem r hr)

theorem isFormulaCell_main (s : Sheet) {n : Node} (h : n.Legible) :
    ∀ q ∈ s.mainFormulaCells n, IsFormulaCell q := by
  intro q hq
  unfold mainFormulaCells at hq
  split at hq
  · rename_i f hf
    rw [List.cons_append, List.mem_cons, List.mem_append] at hq
    rcases hq with rfl | hq | hq
    · exact .label _
    · obtain ⟨e, -, rfl⟩ := Option.map_eq_some_iff.mp (Option.mem_toList.mp hq)
      exact .expression e
    · cases first : (rulesByOperation f.rules).head? with
      | none => rw [first] at hq; cases hq
      | some b =>
        rw [first] at hq
        exact isFormulaCell_bucket h hf (List.mem_of_head? first) q hq
  · simp only [List.mem_cons, List.not_mem_nil, or_false] at hq
    rcases hq with rfl | rfl
    · exact .label _
    · exact .aggregation _
  · obtain ⟨label, -, rfl⟩ := Option.map_eq_some_iff.mp (Option.mem_toList.mp hq)
    exact .label label

/-- The cells of a further row: its key, and formula cells. -/
theorem getElem?_extraFormulaCells {n : Node} (h : n.Legible) {key : Nat → Int} {k : Nat}
    {cells : Cells} (found : (extraFormulaCells n key)[k]? = some cells) :
    (Column.xrefKey, toString (key k)) ∈ cells ∧
      ∀ q ∈ cells, q = (Column.xrefKey, toString (key k)) ∨ IsFormulaCell q := by
  unfold extraFormulaCells at found
  split at found
  · cases found
  · rename_i f hf
    rw [List.getElem?_map, List.getElem?_zipIdx, Option.map_map] at found
    obtain ⟨b, here, rfl⟩ := Option.map_eq_some_iff.mp found
    have bucket := List.mem_of_mem_drop (List.mem_of_getElem? here)
    refine ⟨by simp, fun q hq => ?_⟩
    rw [Function.comp_apply, List.mem_append, Nat.zero_add] at hq
    rcases hq with hq | hq
    · simp only [List.mem_cons, List.not_mem_nil, or_false] at hq
      rcases hq with rfl | rfl
      · exact Or.inl rfl
      · exact Or.inr (.label _)
    · exact Or.inr (isFormulaCell_bucket h hf bucket q hq)

/-! ## The cells of a node by their columns -/

/-- The cells that say what a node is. -/
def idCells (n : Node) : Cells :=
  [(Column.hierarchyId, n.hierarchyId), (Column.hierarchyName, n.name),
   (Column.description, n.description.getD ""), (Column.isRoot, Literal.boolText n.isRoot),
   (Column.sortOrder, toString n.sortOrder)]

/-- The cells that say what a node is and where it stands. -/
def placeCells (s : Sheet) (i : Nat) (n : Node) : Cells :=
  idCells n ++ s.parentCells i ++ s.flagCells i n

/-- The cell of a custom flag. -/
def flagCell (n : Node) (flag : String) : String × String :=
  (flag, Literal.boolText ((CustomFlags.get? flag n.customFlags).getD false))

theorem mem_sharedCells {s : Sheet} {i : Nat} {n : Node} {q : String × String} :
    q ∈ s.sharedCells i n ↔ q ∈ s.placeCells i n ∨
      (∃ key, s.keys.lookup i = some key ∧ q = (Column.xrefKey, toString key)) ∨
      q ∈ s.levelCells i n ∨ q ∈ n.filterGroups ∨ ∃ flag ∈ s.customFlags, q = flagCell n flag := by
  have flags : q ∈ s.customFlags.map (flagCell n) ↔ ∃ flag ∈ s.customFlags, q = flagCell n flag := by
    simp [eq_comm]
  have key : q ∈ ((s.keys.lookup i).map fun key => (Column.xrefKey, toString key)).toList ↔
      ∃ key, s.keys.lookup i = some key ∧ q = (Column.xrefKey, toString key) := by
    simp [Option.mem_toList, eq_comm]
  have eq : s.sharedCells i n = idCells n ++
      ((s.keys.lookup i).map fun key => (Column.xrefKey, toString key)).toList ++
      s.parentCells i ++ s.levelCells i n ++ s.flagCells i n ++ n.filterGroups ++
      s.customFlags.map (flagCell n) := rfl
  rw [eq, placeCells, ← flags, ← key]
  simp only [List.mem_append, or_assoc, or_left_comm, or_comm]

theorem map_fst_parentCells (s : Sheet) (i : Nat) :
    ((s.parentCells i).map (·.1)).Sublist [Column.parentId, Column.parentXrefKey] := by
  unfold parentCells
  cases s.forest.parent? i with
  | none => simp
  | some p =>
    have entry : ∀ {α : Type} (c : String) (value : α → String) (o : Option α),
        ((o.map fun a => (c, value a)).toList.map (·.1)).Sublist [c] := by
      intro α c value o
      cases o <;> simp
    dsimp only
    rw [List.map_append]
    exact (entry _ _ _).append (entry _ _ _)

theorem mem_parentCells {s : Sheet} {i : Nat} {q : String × String} :
    q ∈ s.parentCells i ↔
      (∃ id, ((s.forest.parent? i).bind fun p => (s.forest.nodes[p]?).map (·.hierarchyId)) =
        some id ∧ q = (Column.parentId, id)) ∨
      ∃ key, ((s.forest.parent? i).bind fun p => s.keys.lookup p) = some key ∧
        q = (Column.parentXrefKey, toString key) := by
  unfold parentCells
  cases s.forest.parent? i with
  | none => simp
  | some p => simp [Option.mem_toList, eq_comm]

theorem map_fst_placeCells (s : Sheet) (i : Nat) (n : Node) :
    ((s.placeCells i n).map (·.1)).Sublist Column.place := by
  unfold placeCells
  rw [List.map_append, List.map_append]
  exact ((List.Sublist.refl _).append (s.map_fst_parentCells i)).append (List.Sublist.refl _)

/-- The cells in the columns of the parent are those of the parent. -/
theorem mem_placeCells_parent {s : Sheet} {i : Nat} {n : Node} {c v : String}
    (parent : c ∈ [Column.parentId, Column.parentXrefKey]) :
    (c, v) ∈ s.placeCells i n ↔ (c, v) ∈ s.parentCells i := by
  have apart := Column.parents_notMem c parent
  rw [List.mem_append, not_or] at apart
  have own : (c, v) ∉ idCells n := fun mem => apart.1 (List.mem_map_of_mem (f := Prod.fst) mem)
  have flag : (c, v) ∉ s.flagCells i n := fun mem =>
    apart.2 (List.mem_map_of_mem (f := Prod.fst) mem)
  simp [placeCells, own, flag]

theorem column_placeCells {s : Sheet} {i : Nat} {n : Node} {q : String × String}
    (mem : q ∈ s.placeCells i n) : q.1 ∈ Column.place :=
  (s.map_fst_placeCells i n).subset (List.mem_map_of_mem mem)

/-- No two cells that place a node are in one column. -/
theorem lookup_placeCells {s : Sheet} {i : Nat} {n : Node} {c v : String} :
    (s.placeCells i n).lookup c = some v ↔ (c, v) ∈ s.placeCells i n := by
  have nodup := Column.nodup_place.sublist (s.map_fst_placeCells i n)
  refine ⟨mem_of_lookup, fun mem => lookup_of_unique mem fun w hw => ?_⟩
  exact (Prod.mk.inj (List.inj_on_of_nodup_map nodup hw mem rfl)).2

/-- The parent's hierarchy id, if the parent is among the nodes. -/
theorem lookup_parentId {s : Sheet} {i : Nat} {n : Node} :
    (s.placeCells i n).lookup Column.parentId =
      (s.forest.parent? i).bind fun p => (s.forest.nodes[p]?).map (·.hierarchyId) := by
  refine Option.ext fun id => ?_
  rw [lookup_placeCells, mem_placeCells_parent (by simp), mem_parentCells]
  constructor
  · rintro (⟨id', known, eq⟩ | ⟨key, -, eq⟩)
    · rw [known, (Prod.mk.inj eq).2]
    · exact absurd (Prod.mk.inj eq).1 (by decide)
  · exact fun known => Or.inl ⟨id, known, rfl⟩

/-- The parent's key, if the parent is written. -/
theorem lookup_parentXrefKey {s : Sheet} {i : Nat} {n : Node} :
    (s.placeCells i n).lookup Column.parentXrefKey =
      ((s.forest.parent? i).bind fun p => s.keys.lookup p).map fun key => toString key := by
  refine Option.ext fun text => ?_
  rw [lookup_placeCells, mem_placeCells_parent (by simp), mem_parentCells, Option.map_eq_some_iff]
  constructor
  · rintro (⟨id, -, eq⟩ | ⟨key, known, eq⟩)
    · exact absurd (Prod.mk.inj eq).1 (by decide)
    · exact ⟨key, known, (Prod.mk.inj eq).2.symm⟩
  · rintro ⟨key, known, rfl⟩
    exact Or.inr ⟨key, known, rfl⟩

/-- The name in the level column at a position, counted from zero. -/
def levelName (s : Sheet) (i k : Nat) : Option String :=
  (((s.forest.lineage i).take s.levels)[k]?).map fun j =>
    ((s.forest.nodes[j]?).map (·.name)).getD ""

/-- The sort value in the order column at a position, counted from zero. -/
def levelOrder (s : Sheet) (i : Nat) (n : Node) (k : Nat) : Option Int :=
  (((s.forest.lineage i).take s.levels)[k]?).bind fun _ =>
    ((n.levelSorts[k]?).join).or
      (if k + 1 = (s.forest.lineage i).length then some n.sortOrder else none)

theorem lt_of_take_lineage {s : Sheet} {i k j : Nat}
    (h : ((s.forest.lineage i).take s.levels)[k]? = some j) : k < s.levels := by
  have bound := (List.getElem?_eq_some_iff.mp h).1
  rw [List.length_take] at bound
  omega

theorem lt_of_levelName {s : Sheet} {i k : Nat} {v : String} (h : s.levelName i k = some v) :
    k < s.levels := by
  obtain ⟨j, hj, -⟩ := Option.map_eq_some_iff.mp h
  exact lt_of_take_lineage hj

theorem lt_of_levelOrder {s : Sheet} {i k : Nat} {n : Node} {x : Int}
    (h : s.levelOrder i n k = some x) : k < s.levels := by
  obtain ⟨j, hj, -⟩ := Option.bind_eq_some_iff.mp h
  exact lt_of_take_lineage hj

theorem inRange_of_levelOrder {s : Sheet} {i k : Nat} {n : Node} (h : n.Legible) {x : Int}
    (found : s.levelOrder i n k = some x) : Literal.inRange x = true := by
  obtain ⟨j, -, hx⟩ := Option.bind_eq_some_iff.mp found
  rcases Option.or_eq_some_iff.mp hx with hx | ⟨-, hx⟩
  · exact h.levelSorts x (List.mem_of_getElem? (Option.join_eq_some_iff.mp hx))
  · split at hx
    · cases hx
      exact h.sortOrder
    · cases hx

theorem mem_levelCells {s : Sheet} {i : Nat} {n : Node} {q : String × String} :
    q ∈ s.levelCells i n ↔ ∃ k, (∃ v, s.levelName i k = some v ∧ q = (Column.level (k + 1), v)) ∨
      ∃ x, s.levelOrder i n k = some x ∧ q = (Column.levelOrder (k + 1), toString x) := by
  unfold levelCells levelName levelOrder
  dsimp only
  rw [List.mem_flatMap]
  constructor
  · rintro ⟨p, hp, hq⟩
    have here := List.mem_zipIdx_iff_getElem?.mp hp
    refine ⟨p.2, ?_⟩
    rw [here]
    rw [List.mem_cons, Option.mem_toList, Option.map_eq_some_iff] at hq
    rcases hq with hq | ⟨x, hx, hq⟩
    · exact Or.inl ⟨_, rfl, hq⟩
    · exact Or.inr ⟨x, hx, hq.symm⟩
  · rintro ⟨k, ⟨v, hv, hq⟩ | ⟨x, hx, hq⟩⟩
    · obtain ⟨j, hj, rfl⟩ := Option.map_eq_some_iff.mp hv
      refine ⟨(j, k), List.mem_zipIdx_iff_getElem?.mpr hj, ?_⟩
      rw [hq]
      exact List.mem_cons_self
    · obtain ⟨j, hj, hx⟩ := Option.bind_eq_some_iff.mp hx
      refine ⟨(j, k), List.mem_zipIdx_iff_getElem?.mpr hj, List.mem_cons_of_mem _ ?_⟩
      rw [Option.mem_toList, Option.map_eq_some_iff]
      exact ⟨x, hx, hq.symm⟩

section LevelCells

variable {s : Sheet} (levels : s.levels ≤ Column.maxLevels) {i : Nat} {n : Node} {k : Nat}
  (bound : k < Column.maxLevels) {v : String}

include levels

theorem column_levelCells {q : String × String} (mem : q ∈ s.levelCells i n) :
    q.1 ∈ Column.levelColumns Column.maxLevels := by
  obtain ⟨k, ⟨v, hv, rfl⟩ | ⟨x, hx, rfl⟩⟩ := mem_levelCells.mp mem
  · have := lt_of_levelName hv
    exact List.mem_append_left _ (List.mem_map_of_mem (Column.succ_mem_upTo.mpr (by omega)))
  · have := lt_of_levelOrder hx
    exact List.mem_append_right _ (List.mem_map_of_mem (Column.succ_mem_upTo.mpr (by omega)))

include bound

/-- The cell of a level column holds the name of the level. -/
theorem levelName_of_mem (mem : (Column.level (k + 1), v) ∈ s.levelCells i n) :
    s.levelName i k = some v := by
  have hk := Column.succ_mem_upTo.mpr bound
  obtain ⟨j, ⟨v', hv, eq⟩ | ⟨x, hx, eq⟩⟩ := mem_levelCells.mp mem
  · have hj := Column.succ_mem_upTo.mpr (Nat.lt_of_lt_of_le (lt_of_levelName hv) levels)
    obtain ⟨column, rfl⟩ := Prod.mk.inj eq
    have same := Column.level_inj hk hj column
    rwa [show k = j by omega]
  · have hj := Column.succ_mem_upTo.mpr (Nat.lt_of_lt_of_le (lt_of_levelOrder hx) levels)
    exact absurd (Prod.mk.inj eq).1 (Column.level_ne_levelOrder hk hj)

/-- The cell of an order column holds the sort value of the level. -/
theorem levelOrder_of_mem (mem : (Column.levelOrder (k + 1), v) ∈ s.levelCells i n) :
    ∃ x, s.levelOrder i n k = some x ∧ v = toString x := by
  have hk := Column.succ_mem_upTo.mpr bound
  obtain ⟨j, ⟨v', hv, eq⟩ | ⟨x, hx, eq⟩⟩ := mem_levelCells.mp mem
  · have hj := Column.succ_mem_upTo.mpr (Nat.lt_of_lt_of_le (lt_of_levelName hv) levels)
    exact absurd (Prod.mk.inj eq).1.symm (Column.level_ne_levelOrder hj hk)
  · have hj := Column.succ_mem_upTo.mpr (Nat.lt_of_lt_of_le (lt_of_levelOrder hx) levels)
    obtain ⟨column, value⟩ := Prod.mk.inj eq
    have same := Column.levelOrder_inj hk hj column
    exact ⟨x, by rwa [show k = j by omega], value⟩

end LevelCells

end Sheet

/-! ## Rows -/

/-- What stands in a column after the cells have been filled in: the last of them counts. -/
def lastValue (cells : Cells) (c : String) : String :=
  (cells.reverse.lookup c).getD ""

/-- A record is a row of a node with a key and formula cells. -/
structure Sheet.IsRow (s : Sheet) (i : Nat) (n : Node) (key : Int) (cells : Cells)
    (record : List String) : Prop where
  width : record.length = s.layout.header.length
  kinds : ∀ q ∈ cells, q = (Column.xrefKey, toString key) ∨ IsFormulaCell q
  place : ∀ c ∈ Column.place, s.layout.get record c = ((s.placeCells i n).lookup c).getD ""
  key : s.layout.get record Column.xrefKey = toString key
  levels : ∀ k < Column.maxLevels,
    s.layout.get record (Column.level (k + 1)) = (s.levelName i k).getD ""
  orders : ∀ k < Column.maxLevels, s.layout.get record (Column.levelOrder (k + 1)) =
    ((s.levelOrder i n k).map fun x => toString x).getD ""
  filters : ∀ c ∈ Column.filterColumns,
    s.layout.get record c = (Dict.get? c n.filterGroups).getD ""
  flags : ∀ c ∈ s.customFlags, (c, s.layout.get record c) = flagCell n c
  formula : ∀ c ∈ Column.formula, s.layout.get record c = lastValue cells c

/-- A cell that says what the node is or where it stands. -/
theorem Sheet.IsRow.cell {s : Sheet} {i : Nat} {n : Node} {key : Int} {cells : Cells}
    {record : List String} (isRow : s.IsRow i n key cells record) {c v : String}
    (mem : (c, v) ∈ s.placeCells i n) : s.layout.get record c = v := by
  rw [isRow.place c (column_placeCells mem), lookup_placeCells.mpr mem, Option.getD_some]

/-! ## The cells that the rows of a node share -/

/-- No custom flag and no filter group of a node that is written has the name of a column. -/
def ColumnFree (nodes : List Node) (c : String) : Prop :=
  ∀ n ∈ nodes, n.isPlaceholder = false →
    c ∉ Dict.keys n.customFlags ∧ c ∉ Dict.keys n.filterGroups

instance (nodes : List Node) (c : String) : Decidable (ColumnFree nodes c) :=
  inferInstanceAs (Decidable (∀ n ∈ nodes, _))

theorem Legible.columnFree {nodes : List Node} (h : Legible nodes) {c : String}
    (known : c ∈ Column.known) (apart : c ∉ Column.filterColumns) : ColumnFree nodes c := by
  intro n hn described
  have node := h.node n hn described
  exact ⟨fun flag => (node.flagNames c flag).free known, fun filter =>
    apart (node.filterNames c filter)⟩

/-- What the rows of a node share, as a row. -/
def Sheet.sharedRow (s : Sheet) (i : Nat) (n : Node) : List String :=
  s.layout.fill (s.sharedCells i n) s.layout.blank

@[simp] theorem Sheet.length_sharedRow (s : Sheet) (i : Nat) (n : Node) :
    (s.sharedRow i n).length = s.layout.header.length := by
  rw [sharedRow, Layout.length_fill, Layout.length_blank]

section Shared

variable {nodes : List Node} {options : ExportOptions} {i : Nat} {n : Node}
  (mem : (i, n) ∈ (Sheet.ofNodes nodes options).written)

section Free

variable {c : String} (free : ColumnFree nodes c)

include free

theorem notMem_customFlags : c ∉ (Sheet.ofNodes nodes options).customFlags := by
  intro flag
  obtain ⟨q, hq, hk⟩ := exists_written_of_customFlag flag
  obtain ⟨here, described⟩ := mem_written_iff.mp hq
  exact (free q.2 (List.mem_of_getElem? here) described).1 hk

include mem

/-- The shared cells of a column that is neither a flag nor a filter group. -/
theorem mem_shared_of_free {v : String} :
    (c, v) ∈ (Sheet.ofNodes nodes options).sharedCells i n ↔
      (c, v) ∈ (Sheet.ofNodes nodes options).placeCells i n ∨
        (∃ key, (Sheet.ofNodes nodes options).keys.lookup i = some key ∧
          (c, v) = (Column.xrefKey, toString key)) ∨
        (c, v) ∈ (Sheet.ofNodes nodes options).levelCells i n := by
  obtain ⟨here, described⟩ := mem_written_iff.mp mem
  have noFilter : (c, v) ∉ n.filterGroups := fun filter =>
    (free n (List.mem_of_getElem? here) described).2 (List.mem_map_of_mem (f := Prod.fst) filter)
  have noFlag : ¬ ∃ flag ∈ (Sheet.ofNodes nodes options).customFlags,
      (c, v) = Sheet.flagCell n flag := by
    rintro ⟨flag, hflag, eq⟩
    exact notMem_customFlags free ((Prod.mk.inj eq).1 ▸ hflag)
  rw [Sheet.mem_sharedCells]
  simp only [noFilter, noFlag, or_false]

/-- The shared cell of a column that places the node is what stands there. -/
theorem get_sharedRow_place (hc : c ∈ Column.place) :
    (Sheet.ofNodes nodes options).layout.get ((Sheet.ofNodes nodes options).sharedRow i n) c =
      (((Sheet.ofNodes nodes options).placeCells i n).lookup c).getD "" := by
  obtain ⟨noKey, -, noLevel, -⟩ := (Column.disjoint_columns c).1 hc
  refine Layout.get_fill_blank _ (fun _ => fixed_mem_header options (by simp [Column.fixed, hc]))
    fun v => ?_
  rw [mem_shared_of_free mem free, Sheet.lookup_placeCells]
  refine ⟨?_, Or.inl⟩
  rintro (place | ⟨key, -, eq⟩ | level)
  · exact place
  · exact absurd (Prod.mk.inj eq).1 noKey
  · exact absurd (Sheet.column_levelCells (levels_le options) level) noLevel

/-- The shared cells of the columns of the formula are empty. -/
theorem get_sharedRow_formula (hc : c ∈ Column.formula) :
    (Sheet.ofNodes nodes options).layout.get ((Sheet.ofNodes nodes options).sharedRow i n) c =
      "" := by
  have classes := Column.disjoint_columns c
  refine Layout.get_fill_blank none (by simp) fun v => ?_
  rw [mem_shared_of_free mem free]
  refine ⟨?_, by simp⟩
  rintro (place | ⟨key, -, eq⟩ | level)
  · exact absurd hc (classes.1 (Sheet.column_placeCells place)).2.1
  · exact absurd hc (classes.2.1 (Prod.mk.inj eq).1).1
  · exact absurd (Sheet.column_levelCells (levels_le options) level) (classes.2.2.1 hc).1

end Free

include mem

/-- The shared key is the main key. -/
theorem get_sharedRow_key (free : ColumnFree nodes Column.xrefKey) {key : Int}
    (found : (Sheet.ofNodes nodes options).keys.lookup i = some key) :
    (Sheet.ofNodes nodes options).layout.get ((Sheet.ofNodes nodes options).sharedRow i n)
      Column.xrefKey = toString key := by
  have classes := Column.disjoint_columns Column.xrefKey
  refine Layout.get_fill_blank (some (toString key))
    (fun _ => fixed_mem_header options (by simp [Column.fixed])) fun v => ?_
  rw [mem_shared_of_free mem free, found]
  constructor
  · rintro (place | ⟨key', same, eq⟩ | level)
    · exact absurd rfl (classes.1 (Sheet.column_placeCells place)).1
    · rw [Option.some.inj same, (Prod.mk.inj eq).2]
    · exact absurd (Sheet.column_levelCells (levels_le options) level) (classes.2.1 rfl).2.1
  · intro same
    exact Or.inr (Or.inl ⟨key, rfl, by rw [Option.some.inj same]⟩)

section Levels

variable {k : Nat} (bound : k < Column.maxLevels)

include bound

/-- The shared cell of a level column is the name of the level. -/
theorem get_sharedRow_level (free : ColumnFree nodes (Column.level (k + 1))) :
    (Sheet.ofNodes nodes options).layout.get ((Sheet.ofNodes nodes options).sharedRow i n)
      (Column.level (k + 1)) = ((Sheet.ofNodes nodes options).levelName i k).getD "" := by
  have classes := Column.disjoint_columns (Column.level (k + 1))
  have column : Column.level (k + 1) ∈ Column.levelColumns Column.maxLevels :=
    List.mem_append_left _ (List.mem_map_of_mem (Column.succ_mem_upTo.mpr bound))
  refine Layout.get_fill_blank _ (fun named => ?_) fun v => ?_
  · obtain ⟨v, named⟩ := Option.isSome_iff_exists.mp named
    exact level_mem_header options (Sheet.lt_of_levelName named)
  · rw [mem_shared_of_free mem free]
    constructor
    · rintro (place | ⟨key, -, eq⟩ | level)
      · exact absurd column (classes.1 (Sheet.column_placeCells place)).2.2.1
      · exact absurd column (classes.2.1 (Prod.mk.inj eq).1).2.1
      · exact Sheet.levelName_of_mem (levels_le options) bound level
    · exact fun named => Or.inr (Or.inr (Sheet.mem_levelCells.mpr ⟨k, Or.inl ⟨v, named, rfl⟩⟩))

/-- The shared cell of an order column is the sort value of the level. -/
theorem get_sharedRow_order (free : ColumnFree nodes (Column.levelOrder (k + 1))) :
    (Sheet.ofNodes nodes options).layout.get ((Sheet.ofNodes nodes options).sharedRow i n)
      (Column.levelOrder (k + 1)) =
        (((Sheet.ofNodes nodes options).levelOrder i n k).map fun x => toString x).getD "" := by
  have classes := Column.disjoint_columns (Column.levelOrder (k + 1))
  have column : Column.levelOrder (k + 1) ∈ Column.levelColumns Column.maxLevels :=
    List.mem_append_right _ (List.mem_map_of_mem (Column.succ_mem_upTo.mpr bound))
  refine Layout.get_fill_blank _ (fun sorted => ?_) fun v => ?_
  · rw [Option.isSome_map] at sorted
    obtain ⟨x, sorted⟩ := Option.isSome_iff_exists.mp sorted
    exact order_mem_header options (Sheet.lt_of_levelOrder sorted)
  · rw [mem_shared_of_free mem free, Option.map_eq_some_iff]
    constructor
    · rintro (place | ⟨key, -, eq⟩ | level)
      · exact absurd column (classes.1 (Sheet.column_placeCells place)).2.2.1
      · exact absurd column (classes.2.1 (Prod.mk.inj eq).1).2.1
      · obtain ⟨x, sorted, rfl⟩ := Sheet.levelOrder_of_mem (levels_le options) bound level
        exact ⟨x, sorted, rfl⟩
    · rintro ⟨x, sorted, rfl⟩
      exact Or.inr (Or.inr (Sheet.mem_levelCells.mpr ⟨k, Or.inr ⟨x, sorted, rfl⟩⟩))

end Levels

section Named

variable (h : Legible nodes) {c : String}

include h

/-- The shared cell of a filter column is the value of the filter group. -/
theorem get_sharedRow_filter (hc : c ∈ Column.filterColumns) :
    (Sheet.ofNodes nodes options).layout.get ((Sheet.ofNodes nodes options).sharedRow i n) c =
      (Dict.get? c n.filterGroups).getD "" := by
  have classes := Column.disjoint_columns c
  refine Layout.get_fill_blank _ (fun _ => filter_mem_header options hc) fun v => ?_
  rw [Sheet.mem_sharedCells, Dict.get?_eq_some_iff (h.of_written mem).filterOrder]
  constructor
  · rintro (place | ⟨key, -, eq⟩ | level | filter | ⟨flag, hflag, eq⟩)
    · exact absurd hc (classes.1 (Sheet.column_placeCells place)).2.2.2
    · exact absurd hc (classes.2.1 (Prod.mk.inj eq).1).2.2
    · exact absurd hc (classes.2.2.2 (Sheet.column_levelCells (levels_le options) level))
    · exact filter
    · have free := (isName_of_mem_customFlags h options hflag).free
      exact absurd (Column.known_of_filterColumns hc) ((Prod.mk.inj eq).1 ▸ free)
  · exact fun filter => Or.inr (Or.inr (Or.inr (Or.inl filter)))

/-- The shared cell of a custom flag is the value of the flag. -/
theorem get_sharedRow_flag (hc : c ∈ (Sheet.ofNodes nodes options).customFlags) :
    (Sheet.ofNodes nodes options).layout.get ((Sheet.ofNodes nodes options).sharedRow i n) c =
      (Sheet.flagCell n c).2 := by
  have free := (isName_of_mem_customFlags h options hc).free
  refine Layout.get_fill_blank (some (Sheet.flagCell n c).2)
    (fun _ => flag_mem_header options hc) fun v => ?_
  rw [Sheet.mem_sharedCells, Option.some.injEq]
  constructor
  · rintro (place | ⟨key, -, eq⟩ | level | filter | ⟨flag, -, eq⟩)
    · have column := Sheet.column_placeCells place
      exact absurd (Column.known_of_fixed (by simp [Column.fixed, column])) free
    · exact absurd (Column.known_of_fixed (by simp [Column.fixed, (Prod.mk.inj eq).1])) free
    · exact absurd (Column.known_of_levelColumns
        (Sheet.column_levelCells (levels_le options) level)) free
    · have column := (h.of_written mem).filterNames c (List.mem_map_of_mem (f := Prod.fst) filter)
      exact absurd (Column.known_of_filterColumns column) free
    · obtain ⟨rfl, rfl⟩ := Prod.mk.inj eq
      rfl
  · rintro rfl
    exact Or.inr (Or.inr (Or.inr (Or.inr ⟨c, hc, rfl⟩)))

/-- The cells that the rows of a node share, with the key of the main row. -/
theorem isRow_shared {key : Int} (found : (Sheet.ofNodes nodes options).keys.lookup i = some key) :
    (Sheet.ofNodes nodes options).IsRow i n key []
      ((Sheet.ofNodes nodes options).sharedRow i n) := by
  have fixed : ∀ {c}, c ∈ Column.fixed → ColumnFree nodes c := fun hc =>
    h.columnFree (Column.known_of_fixed hc) (Column.fixed_notMem_filterColumns hc)
  have leveled : ∀ {c}, c ∈ Column.levelColumns Column.maxLevels → ColumnFree nodes c := fun hc =>
    h.columnFree (Column.known_of_levelColumns hc) ((Column.disjoint_columns _).2.2.2 hc)
  constructor
  case width => exact Sheet.length_sharedRow _ _ _
  case kinds => simp
  case place => exact fun c hc => get_sharedRow_place mem (fixed (by simp [Column.fixed, hc])) hc
  case key => exact get_sharedRow_key mem (fixed (by simp [Column.fixed])) found
  case levels =>
    intro k bound
    refine get_sharedRow_level mem bound (leveled ?_)
    exact List.mem_append_left _ (List.mem_map_of_mem (Column.succ_mem_upTo.mpr bound))
  case orders =>
    intro k bound
    refine get_sharedRow_order mem bound (leveled ?_)
    exact List.mem_append_right _ (List.mem_map_of_mem (Column.succ_mem_upTo.mpr bound))
  case filters => exact fun c hc => get_sharedRow_filter mem h hc
  case flags => exact fun c hc => congrArg (Prod.mk c) (get_sharedRow_flag mem h hc)
  case formula =>
    exact fun c hc => get_sharedRow_formula mem (fixed (by simp [Column.fixed, hc])) hc

end Named

end Shared

/-- A key and formula cells are in no other columns. -/
theorem notMem_of_kinds {k : Int} {cells : Cells}
    (kinds : ∀ q ∈ cells, q = (Column.xrefKey, toString k) ∨ IsFormulaCell q) {c : String}
    (noKey : c ≠ Column.xrefKey) (noFormula : c ∉ Column.formula) : c ∉ cells.map (·.1) := by
  intro known
  obtain ⟨q, hq, rfl⟩ := List.mem_map.mp known
  rcases kinds q hq with rfl | formula
  · exact noKey rfl
  · exact noFormula formula.column

/-- Filling in a key and formula cells keeps the rest of a row. -/
theorem isRow_fill {nodes : List Node} (h : Legible nodes) {options : ExportOptions} {i : Nat}
    {n : Node} {key : Int} {record : List String}
    (row : (Sheet.ofNodes nodes options).IsRow i n key [] record) {k : Int} {cells : Cells}
    (kinds : ∀ q ∈ cells, q = (Column.xrefKey, toString k) ∨ IsFormulaCell q)
    (keyed : k = key ∨ (Column.xrefKey, toString k) ∈ cells) :
    (Sheet.ofNodes nodes options).IsRow i n k cells
      ((Sheet.ofNodes nodes options).layout.fill cells record) := by
  have other : ∀ {c}, c ≠ Column.xrefKey → c ∉ Column.formula →
      (Sheet.ofNodes nodes options).layout.get
          ((Sheet.ofNodes nodes options).layout.fill cells record) c =
        (Sheet.ofNodes nodes options).layout.get record c := fun noKey noFormula =>
    Layout.get_fill_of_notMem (notMem_of_kinds kinds noKey noFormula) row.width
  have leveled : ∀ c ∈ Column.levelColumns Column.maxLevels,
      c ≠ Column.xrefKey ∧ c ∉ Column.formula := by
    intro c hc
    have classes := Column.disjoint_columns c
    exact ⟨fun same => (classes.2.1 same).2.1 hc, fun formula => (classes.2.2.1 formula).1 hc⟩
  constructor
  case width => rw [Layout.length_fill, row.width]
  case kinds => exact kinds
  case place =>
    intro c hc
    obtain ⟨noKey, noFormula, -⟩ := (Column.disjoint_columns c).1 hc
    rw [other noKey noFormula, row.place c hc]
  case key =>
    have keyClass := (Column.disjoint_columns Column.xrefKey).2.1 rfl
    have header : Column.xrefKey ∈ (Sheet.ofNodes nodes options).layout.header :=
      fixed_mem_header options (by simp [Column.fixed])
    rcases Layout.get_fill_cases header cells row.width with ⟨absent, same⟩ | there
    · rcases keyed with rfl | mem
      · rw [same, row.key]
      · exact absurd (List.mem_map_of_mem mem) absent
    · rcases kinds _ there with eq | formula
      · exact (Prod.mk.inj eq).2
      · exact absurd formula.column keyClass.1
  case levels =>
    intro j hj
    obtain ⟨noKey, noFormula⟩ := leveled (Column.level (j + 1))
      (List.mem_append_left _ (List.mem_map_of_mem (Column.succ_mem_upTo.mpr hj)))
    rw [other noKey noFormula, row.levels j hj]
  case orders =>
    intro j hj
    obtain ⟨noKey, noFormula⟩ := leveled (Column.levelOrder (j + 1))
      (List.mem_append_right _ (List.mem_map_of_mem (Column.succ_mem_upTo.mpr hj)))
    rw [other noKey noFormula, row.orders j hj]
  case filters =>
    intro c hc
    have classes := Column.disjoint_columns c
    have noKey : c ≠ Column.xrefKey := fun same => (classes.2.1 same).2.2 hc
    have noFormula : c ∉ Column.formula := fun formula => (classes.2.2.1 formula).2 hc
    rw [other noKey noFormula, row.filters c hc]
  case flags =>
    intro c hc
    have free := (isName_of_mem_customFlags h options hc).free
    have noKey : c ≠ Column.xrefKey := by
      rintro rfl
      exact free (Column.known_of_fixed (by simp [Column.fixed]))
    have noFormula : c ∉ Column.formula := fun formula =>
      free (Column.known_of_fixed (by simp [Column.fixed, formula]))
    rw [other noKey noFormula, row.flags c hc]
  case formula =>
    intro c hc
    rw [Layout.get_fill (fixed_mem_header options (by simp [Column.fixed, hc])) cells record
      row.width, row.formula c hc]
    rfl

/-! ## Records -/

/-- What a row of an export is filled with: the node at a position, a key and formula cells. -/
structure Filling where
  position : Nat
  node : Node
  key : Int
  cells : Cells

namespace Sheet

/-- The main row of a node. -/
def mainFilling (s : Sheet) (q : Nat × Node) : Filling :=
  ⟨q.1, q.2, (s.keys.lookup q.1).getD 0, s.mainFormulaCells q.2⟩

/-- The further rows of a node, which have the given keys. -/
def extraFillings (key : Nat → Int) (q : Nat × Node) : List Filling :=
  (extraFormulaCells q.2 key).zipIdx.map fun c => ⟨q.1, q.2, key c.2, c.1⟩

/-- The rows of a list of nodes; further rows have the given keys. -/
def fillingsFrom (s : Sheet) : (key : Nat → Int) → List (Nat × Node) → List Filling
  | _, [] => []
  | key, q :: rest =>
    s.mainFilling q :: extraFillings key q ++ fillingsFrom s (fun k => key (extraRows q.2 + k)) rest

/-- The rows of the sheet. -/
def fillings (s : Sheet) (options : ExportOptions) : List Filling :=
  s.fillingsFrom (s.furtherKey options) s.written

@[simp] theorem length_extraFillings (key : Nat → Int) (q : Nat × Node) :
    (extraFillings key q).length = extraRows q.2 := by
  rw [extraFillings, List.length_map, List.length_zipIdx, length_extraFormulaCells]

theorem mem_extraFillings {key : Nat → Int} {q : Nat × Node} {p : Filling}
    (mem : p ∈ extraFillings key q) :
    p.position = q.1 ∧ p.node = q.2 ∧ ∃ k < extraRows q.2, p.key = key k := by
  obtain ⟨c, hc, rfl⟩ := List.mem_map.mp mem
  have bound := (List.getElem?_eq_some_iff.mp (List.mem_zipIdx_iff_getElem?.mp hc)).1
  rw [length_extraFormulaCells] at bound
  exact ⟨rfl, rfl, c.2, bound, rfl⟩

end Sheet

/-- A record is the row of a written node that a filling describes, with a key of 64 bits. -/
structure IsFilled (nodes : List Node) (options : ExportOptions) (p : Filling)
    (record : List String) : Prop where
  written : (p.position, p.node) ∈ (Sheet.ofNodes nodes options).written
  range : Literal.inRange p.key = true
  isRow : (Sheet.ofNodes nodes options).IsRow p.position p.node p.key p.cells record

section Records

variable {nodes : List Node} (h : Legible nodes) {options : ExportOptions}
  (fits : KeysFit nodes options)

include h fits

/-- The records of a node are its main row and its further rows. -/
theorem isFilled_nodeRecords {q : Nat × Node}
    (mem : q ∈ (Sheet.ofNodes nodes options).written) {key : Nat → Int}
    (range : ∀ k < extraRows q.2, Literal.inRange (key k) = true) :
    List.Forall₂ (IsFilled nodes options)
      ((Sheet.ofNodes nodes options).mainFilling q :: Sheet.extraFillings key q)
      ((Sheet.ofNodes nodes options).nodeRecords key q.1 q.2) := by
  have node := h.of_written mem
  obtain ⟨main, found⟩ := exists_key options mem
  have shared := isRow_shared mem h found
  refine List.Forall₂.cons ⟨mem, ?_, ?_⟩ ?_
  · rw [Sheet.mainFilling, found]
    exact fits.inRange_key found
  · rw [Sheet.mainFilling, found]
    exact isRow_fill h shared (fun c hc => Or.inr (Sheet.isFormulaCell_main _ node c hc))
      (Or.inl rfl)
  · rw [Sheet.extraFillings, List.forall₂_map_right_iff, List.forall₂_map_left_iff]
    rw [List.forall₂_iff_get]
    refine ⟨List.length_zipIdx, fun k hk hk' => ?_⟩
    have cells := List.getElem?_eq_getElem hk'
    obtain ⟨keyed, kinds⟩ := Sheet.getElem?_extraFormulaCells node cells
    rw [length_extraFormulaCells] at hk'
    simp only [List.get_eq_getElem, List.getElem_zipIdx, Nat.zero_add]
    exact ⟨mem, range k hk', isRow_fill h shared kinds (Or.inr keyed)⟩

/-- The records of an export are rows of its written nodes, in order. -/
theorem isFilled_records : List.Forall₂ (IsFilled nodes options)
    ((Sheet.ofNodes nodes options).fillings options)
    ((Sheet.ofNodes nodes options).records options) := by
  set s := Sheet.ofNodes nodes options
  have run : ∀ (todo : List (Nat × Node)) (next : Int), (∀ q ∈ todo, q ∈ s.written) →
      (∀ k < (todo.map fun q => extraRows q.2).sum,
        Literal.inRange (ExportKeys.further s.mainKeys next k) = true) →
      List.Forall₂ (IsFilled nodes options)
        (s.fillingsFrom (ExportKeys.further s.mainKeys next) todo) (s.recordsFrom next todo) := by
    intro todo
    induction todo with
    | nil => exact fun _ _ _ => List.Forall₂.nil
    | cons q todo ih =>
      intro next within range
      rw [List.map_cons, List.sum_cons] at range
      rw [Sheet.fillingsFrom, Sheet.recordsFrom, ← ExportKeys.further_after]
      refine List.rel_append (isFilled_nodeRecords h fits (within q (by simp))
        fun k hk => range k (by omega)) (ih _ (fun r hr => within r (by simp [hr])) ?_)
      intro k hk
      rw [ExportKeys.further_after]
      exact range _ (by omega)
  exact run _ _ (fun _ hq => hq) fits.range

theorem exists_filling {record : List String}
    (mem : record ∈ (Sheet.ofNodes nodes options).records options) :
    ∃ p, IsFilled nodes options p record := by
  obtain ⟨k, hk, rfl⟩ := List.mem_iff_getElem.mp mem
  have all := List.forall₂_iff_get.mp (isFilled_records h fits)
  exact ⟨_, all.2 k (all.1 ▸ hk) hk⟩

theorem records_ne_nil {q : Nat × Node} (mem : q ∈ (Sheet.ofNodes nodes options).written) :
    (Sheet.ofNodes nodes options).records options ≠ [] := by
  intro empty
  have rows := (isFilled_records h fits).length_eq
  rw [empty, List.length_nil, List.length_eq_zero_iff] at rows
  obtain ⟨r, rest, split⟩ := List.exists_cons_of_ne_nil (List.ne_nil_of_mem mem)
  rw [Sheet.fillings, split, Sheet.fillingsFrom] at rows
  cases rows

end Records

end Rollup.Export

import Mathlib.Data.List.Basic
import Rollup.Proofs.Export.Formulas
import Rollup.Proofs.RowGroup.Total

/-!
# Formula labels of an export

Which labels and aggregations the rows of an export carry: a node with a formula repeats the label
of the formula on all its rows, a node with a total states the aggregation next to the label of the
total, and any other node carries the label of the total that it is looked up for.

Results:

* `labels_group`: the labels of the rows of a node.
* `mem_uses`: which rows use a label, as an import collects them.
-/

namespace Rollup

namespace Export

namespace Sheet

/-- The label of the total that a node is looked up for, by its id or else by its name. -/
def childLabel? (s : Sheet) (n : Node) : Option String :=
  (s.childLabels.lookup n.hierarchyId).or (s.childLabels.lookup n.name)

/-- The labels of the rows of a node, with the aggregations next to them. -/
def labels (s : Sheet) (n : Node) : List (String × Option Operation) :=
  match n.formula, n.total? with
  | some f, _ => List.replicate (extraRows n + 1) (f.groupName, none)
  | none, some t => [(t.groupName, some t.aggregation)]
  | none, none => (s.childLabel? n).toList.map fun label => (label, none)

/-- A node carries the label of its formula, else that of its total, else the label that it is
    looked up by. -/
theorem mem_labels_iff {s : Sheet} {n : Node} {label : String} :
    label ∈ (s.labels n).map (·.1) ↔ (∃ f ∈ n.formula, f.groupName = label) ∨
      (n.formula = none ∧ ∃ t ∈ n.total?, t.groupName = label) ∨
      (n.formula = none ∧ n.total? = none ∧ s.childLabel? n = some label) := by
  cases formula : n.formula with
  | some f => simp [labels, formula, eq_comm]
  | none => cases total : n.total? <;> simp [labels, formula, total, eq_comm]

/-- Only a total states an aggregation. -/
theorem mem_labels_aggregation_iff {s : Sheet} {n : Node} {label : String} {a : Operation} :
    (label, some a) ∈ s.labels n ↔
      n.formula = none ∧ ∃ t ∈ n.total?, t.groupName = label ∧ t.aggregation = a := by
  cases formula : n.formula with
  | some f => simp [labels, formula]
  | none => cases total : n.total? <;> simp [labels, formula, total, eq_comm]

end Sheet

/-! ## Rows -/

theorem aggregation_of_absent {cells : Cells}
    (absent : cells.reverse.lookup Column.aggregation = none) :
    (formulaPart cells).aggregation = none := by
  rw [formulaPart]
  dsimp only
  rw [lastValue, absent]
  rfl

theorem aggregation_of_last {cells : Cells} {op : Operation}
    (last : cells.reverse.lookup Column.aggregation = some op.keyword) :
    (formulaPart cells).aggregation = some op := by
  rw [formulaPart]
  dsimp only
  rw [lastValue, last, Option.getD_some, Operation.text?_keyword, Option.bind_some,
    Operation.read?_keyword]

theorem groupName_of_absent {cells : Cells}
    (absent : cells.reverse.lookup Column.formulaGroupName = none) :
    (formulaPart cells).groupName = none := by
  rw [formulaPart]
  dsimp only
  rw [lastValue, absent]
  rfl

theorem groupName_of_last {cells : Cells} {label : String} (plain : Literal.Plain label)
    (last : cells.reverse.lookup Column.formulaGroupName = some label) :
    (formulaPart cells).groupName = some label := by
  rw [formulaPart]
  dsimp only
  rw [lastValue, last]
  exact plain

/-- The cells of rules hold neither a label nor an aggregation. -/
theorem lookup_rules_append (front : Cells) {b : Option (Operation × List Rule)} {c : String}
    (column : c = Column.formulaGroupName ∨ c = Column.aggregation) :
    (front ++ (b.map fun b => Sheet.ruleCells b.1 b.2).getD []).reverse.lookup c =
      front.reverse.lookup c := by
  have absent : ((b.map fun b => Sheet.ruleCells b.1 b.2).getD []).reverse.lookup c = none := by
    cases b with
    | none => rfl
    | some b =>
      rw [Option.map_some, Option.getD_some]
      unfold Sheet.ruleCells
      rcases column with rfl | rfl <;> split <;>
        simp [List.lookup_cons, Column.formulaOperation, Column.formulaOperand, Column.formulaPrecedence,
          Column.formulaConstant, Column.formulaGroupName, Column.aggregation]
  rw [List.reverse_append, List.lookup_append, absent, Option.none_or]

section Group

variable {s : Sheet} {w : Window} {number : Nat} {key : Nat → Int} {q : Nat × Node}

/-- The labels of the rows of a node with a formula. -/
theorem labels_group_of_formula {f : Formula} (hf : q.2.formula = some f)
    (plain : Literal.Plain f.groupName) :
    (s.group w number key q).rows.filterMap HierarchyRow.label? =
      List.replicate (extraRows q.2 + 1) (f.groupName, none) := by
  have labelled : ∀ {row : HierarchyRow} {front : Cells} {b : Option (Operation × List Rule)},
      row.formula = formulaPart (front ++ (b.map fun b => Sheet.ruleCells b.1 b.2).getD []) →
      front.reverse.lookup Column.formulaGroupName = some f.groupName →
      front.reverse.lookup Column.aggregation = none →
      row.label? = some (f.groupName, none) := by
    intro row front b part label aggregation
    rw [HierarchyRow.label?, part,
      groupName_of_last plain ((lookup_rules_append front (Or.inl rfl)).trans label),
      aggregation_of_absent ((lookup_rules_append front (Or.inr rfl)).trans aggregation),
      Option.map_some]
  have leader : (s.group w number key q).leader.label? = some (f.groupName, none) := by
    refine labelled (formula_leader hf) (Sheet.lookup_headCells f).1 ?_
    unfold Sheet.headCells
    cases f.expression <;>
      simp [List.lookup_cons, Column.formulaGroupName, Column.formulaExpression, Column.aggregation]
  have others : ∀ row ∈ (s.group w number key q).others, row.label? = some (f.groupName, none) := by
    rw [others_group hf]
    intro row hrow
    obtain ⟨p, -, rfl⟩ := List.mem_map.mp hrow
    refine labelled (b := some p.1) rfl ?_ ?_ <;>
      simp [List.lookup_cons, Column.xrefKey, Column.formulaGroupName, Column.aggregation]
  have count : (s.group w number key q).others.length = extraRows q.2 := by
    unfold Sheet.group Sheet.extraFillings
    simp [length_extraFormulaCells]
  rw [RowGroup.rows, List.filterMap_cons_some leader, List.filterMap_congr others,
    List.filterMap_eq_map', List.map_const', count, List.replicate_succ]

/-- A node without a formula has one row. -/
theorem labels_group_of_no_formula (none : q.2.formula = none) :
    (s.group w number key q).rows.filterMap HierarchyRow.label? =
      ((formulaPart (s.mainFormulaCells q.2)).groupName.map fun label =>
        (label, (formulaPart (s.mainFormulaCells q.2)).aggregation)).toList := by
  have others : (s.group w number key q).others = [] := by
    unfold Sheet.group Sheet.extraFillings Sheet.extraFormulaCells
    rw [none]
    rfl
  have leader : (s.group w number key q).leader.label? =
      (formulaPart (s.mainFormulaCells q.2)).groupName.map fun label =>
        (label, (formulaPart (s.mainFormulaCells q.2)).aggregation) := rfl
  rw [RowGroup.rows, others, ← leader]
  cases found : (s.group w number key q).leader.label? with
  | none => exact List.filterMap_cons_none found
  | some label => exact List.filterMap_cons_some found

/-- The labels of the rows of a node. -/
theorem labels_group (formulas : ∀ f, q.2.formula = some f → Literal.Plain f.groupName)
    (totals : ∀ t, q.2.total? = some t → Literal.Plain t.groupName)
    (children : ∀ c ∈ s.childLabels, Literal.Plain c.2) :
    (s.group w number key q).rows.filterMap HierarchyRow.label? = s.labels q.2 := by
  rw [Sheet.labels]
  cases hf : q.2.formula with
  | some f => exact labels_group_of_formula hf (formulas f hf)
  | none =>
    rw [labels_group_of_no_formula hf]
    cases ht : q.2.total? with
    | some t =>
      have cells : s.mainFormulaCells q.2 = [(Column.formulaGroupName, t.groupName),
          (Column.aggregation, t.aggregation.keyword)] := by
        rw [Sheet.mainFormulaCells, hf, ht]
      have label : (formulaPart (s.mainFormulaCells q.2)).groupName = some t.groupName := by
        rw [cells]
        refine groupName_of_last (totals t ht) ?_
        simp [List.lookup_cons, Column.formulaGroupName, Column.aggregation]
      have aggregation : (formulaPart (s.mainFormulaCells q.2)).aggregation = some t.aggregation := by
        rw [cells]
        exact aggregation_of_last (by simp)
      rw [label, aggregation]
      rfl
    | none =>
      have cells : s.mainFormulaCells q.2 = ((s.childLabel? q.2).map fun label =>
          (Column.formulaGroupName, label)).toList := by
        rw [Sheet.mainFormulaCells, hf, ht, Sheet.childLabel?]
      have aggregation : (formulaPart (s.mainFormulaCells q.2)).aggregation = none := by
        rw [cells]
        refine aggregation_of_absent ?_
        cases s.childLabel? q.2 <;> simp [Column.formulaGroupName, Column.aggregation]
      rw [aggregation]
      cases hc : s.childLabel? q.2 with
      | none =>
        rw [cells, hc, Option.map_none, groupName_of_absent rfl]
        rfl
      | some label =>
        have plain : Literal.Plain label := by
          rcases Option.or_eq_some_iff.mp hc with found | ⟨-, found⟩
          · exact children (_, label) (mem_of_lookup found)
          · exact children (_, label) (mem_of_lookup found)
        rw [cells, hc, groupName_of_last plain (by simp)]
        rfl

end Group

/-! ## Uses -/

/-- The labels of formulas and totals are in the form in which they are kept. -/
structure PlainLabels (nodes : List Node) : Prop where
  formula : ∀ n ∈ nodes, ∀ f, n.formula = some f → Literal.Plain f.groupName
  total : ∀ n ∈ nodes, ∀ t, n.total? = some t → Literal.Plain t.groupName

section Uses

variable {nodes : List Node} (h : Exportable nodes) {options : ExportOptions}

include h

/-- The labels under which children are looked up are those of totals without a formula. -/
theorem mem_childLabels {c : String × String} :
    c ∈ (Sheet.ofNodes nodes options).childLabels ↔ ∃ n ∈ nodes, n.formula = none ∧
      ∃ t, n.total? = some t ∧ ∃ child ∈ t.children,
        c = (child.hierarchyId.getD child.name, t.groupName) := by
  have eq : (Sheet.ofNodes nodes options).childLabels =
      Sheet.totalLabels ((Sheet.ofNodes nodes options).written.map (·.2)) := rfl
  have same : ∀ n, n ∈ (Sheet.ofNodes nodes options).written.map (·.2) ↔ n ∈ nodes := by
    intro n
    constructor
    · intro mem
      obtain ⟨q, hq, rfl⟩ := List.mem_map.mp mem
      exact List.mem_of_getElem? ((mem_written h options).mp hq)
    · intro mem
      obtain ⟨i, here⟩ := List.getElem?_of_mem mem
      exact List.mem_map.mpr ⟨(i, n), (mem_written h options).mpr here, rfl⟩
  rw [eq, Sheet.totalLabels, List.mem_flatMap]
  constructor
  · rintro ⟨n, hn, mem⟩
    refine ⟨n, (same n).mp hn, ?_⟩
    cases hf : n.formula with
    | some f => simp [hf] at mem
    | none =>
      cases ht : n.total? with
      | none => simp [hf, ht] at mem
      | some t =>
        simp only [hf, ht] at mem
        obtain ⟨child, hchild, eq⟩ := List.mem_map.mp mem
        exact ⟨rfl, t, rfl, child, hchild, eq.symm⟩
  · rintro ⟨n, hn, hf, t, ht, child, hchild, rfl⟩
    refine ⟨n, (same n).mpr hn, ?_⟩
    simp only [hf, ht]
    exact List.mem_map_of_mem hchild

variable (plain : PlainLabels nodes) (w : Window)

include plain

/-- The labels of the rows of a group are those of its node, whichever row leads. -/
theorem labels_groups {k : Nat} {g : RowGroup}
    (hg : ((Sheet.ofNodes nodes options).groups w options)[k]? = some g) {q : Nat × Node}
    (hq : (Sheet.ofNodes nodes options).written[k]? = some q) :
    (g.rows.filterMap HierarchyRow.label?).Perm ((Sheet.ofNodes nodes options).labels q.2) := by
  obtain ⟨r, number, before, hr, -, rfl⟩ := exists_written w hg
  obtain rfl := Option.some.inj (hr.symm.trans hq)
  have mem := List.mem_of_getElem? ((mem_written h options).mp (List.mem_of_getElem? hq))
  refine ((RowGroup.perm_rows_led _).filterMap _).trans (List.Perm.of_eq ?_)
  refine labels_group (plain.formula r.2 mem) (plain.total r.2 mem) fun c hc => ?_
  obtain ⟨n, hn, -, t, ht, child, -, rfl⟩ := (mem_childLabels h).mp hc
  exact plain.total n hn t ht

/-- A use of a label is by a row of a written node. -/
theorem mem_uses {u : String × TotalPlan.Use} :
    u ∈ TotalPlan.uses ((Sheet.ofNodes nodes options).groups w options) ↔
      ∃ q, (Sheet.ofNodes nodes options).written[u.2.group]? = some q ∧
        (u.1, u.2.aggregation) ∈ (Sheet.ofNodes nodes options).labels q.2 := by
  rw [TotalPlan.mem_uses]
  constructor
  · rintro ⟨g, hg, mem⟩
    obtain ⟨q, -, -, hq, -⟩ := exists_written w hg
    exact ⟨q, hq, (labels_groups h plain w hg hq).mem_iff.mp mem⟩
  · rintro ⟨q, hq, mem⟩
    obtain ⟨number, before, -, hg⟩ := getElem?_groups w hq
    exact ⟨_, hg, (labels_groups h plain w hg hq).mem_iff.mpr mem⟩

end Uses

end Export

end Rollup

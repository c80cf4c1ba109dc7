import Mathlib.Data.List.Basic
import Rollup.Proofs.Export.Formulas
import Rollup.Proofs.Export.Mappings
import Rollup.Proofs.Export.RowKeys

/-!
# The operand cells of an export

The rows of a formula hold the operands of one operation each, joined by a separator that nothing
escapes. A cell is read back as the operands that were written iff none of them contains the
separator.

Results:

* `perm_written`: the nodes that are written.
* `map_get_records_block`: the operand cells of the rows of a formula.
* `split_operandCell_iff`: when an operand cell is read back.
* `exists_operandBlocks`: the operand cells of an export.
-/

namespace Rollup

namespace Export

/-! ## The written nodes -/

/-- All nodes but placeholders are written. -/
theorem perm_written (nodes : List Node) (options : ExportOptions) :
    ((Sheet.ofNodes nodes options).written.map (·.2)).Perm
      (nodes.filter fun n => !n.isPlaceholder) := by
  have eq : (Sheet.ofNodes nodes options).written.map (·.2) = mappingNodes nodes := by
    change (((Forest.ofNodes nodes).exportOrder.filter _).filterMap _).map _ = _
    rw [List.map_filterMap, List.filterMap_filter, mappingNodes, List.filter_filterMap]
    refine List.filterMap_congr fun i _ => ?_
    rw [forest_ofNodes, show (Forest.ofNodes nodes).nodes = nodes from rfl]
    cases nodes[i]? <;> simp [Option.filter]
  exact eq ▸ perm_mappingNodes_filter nodes

/-! ## Cells -/

namespace Sheet

/-- The cell with the operands of some rules. -/
def operandCell (rules : List Rule) : String :=
  joined (rules.map (·.operand))

/-- Cells of rules that are filled in give the operand cell. -/
theorem get_fill_ruleCells {l : Layout} (header : Column.formulaOperand ∈ l.header) (front : Cells)
    (operation : Operation) (rules : List Rule) {record : List String}
    (width : record.length = l.header.length) :
    l.get (l.fill (front ++ ruleCells operation rules) record) Column.formulaOperand =
      operandCell rules := by
  rw [Layout.get_fill header _ record width, List.reverse_append, List.lookup_append,
    (lookup_ruleCells operation rules).2.1, Option.some_or, Option.getD_some, operandCell]

/-- The rows of a node with a formula have the operand cells of its operations, in order. -/
theorem map_get_records_block {s : Sheet} (header : Column.formulaOperand ∈ s.layout.header)
    (key : Nat → Int) {q : Nat × Node} {f : Formula} (hf : q.2.formula = some f) (some : f.rules ≠ []) :
    (s.block key q).records.map (s.layout.get · Column.formulaOperand) =
      (rulesByOperation f.rules).map fun b => operandCell b.2 := by
  have width := s.length_sharedRow q.1 q.2
  obtain ⟨first, rest, split⟩ : ∃ first rest, rulesByOperation f.rules = first :: rest := by
    refine List.exists_cons_of_ne_nil fun none => some ?_
    have all := flatMap_rulesByOperation f.rules
    rw [none] at all
    exact (all ▸ Rule.perm_grouped f.rules).nil_eq.symm
  rw [Block.records, block, mainFormulaCells_eq hf, extraFormulaCells_eq hf, split]
  simp only [List.head?_cons, Option.map_some, Option.getD_some, List.drop_one, List.tail_cons,
    List.map_cons, List.map_map, get_fill_ruleCells header _ _ _ width, Function.comp_def]
  conv_rhs => rw [← List.zipIdx_map_fst 0 rest]
  rw [List.map_map]
  rfl

/-- An operand cell is read back as the operands iff none of them contains the separator. -/
theorem split_operandCell_iff {rules : List Rule}
    (trimmed : ∀ r ∈ rules, Text.trim r.operand = r.operand) (some : rules ≠ []) :
    (Text.split Column.valueSeparator (operandCell rules)).map Text.trim = rules.map (·.operand) ↔
      ∀ r ∈ rules, Column.valueSeparator ∉ r.operand.toList := by
  rw [operandCell, joined, Text.split_join_iff (by simpa using trimmed) (by simpa using some)]
  simp

end Sheet

/-- The rows of an export by nodes, with the operand cells of those that have a formula. -/
theorem exists_operandBlocks (nodes : List Node) (options : ExportOptions) :
    ∃ (l : Layout) (blocks : List Block), Column.formulaOperand ∈ l.header ∧
      hierarchy nodes options = l.write (blocks.flatMap Block.records) ∧
      (blocks.map (·.node)).Perm (nodes.filter fun n => !n.isPlaceholder) ∧
      ∀ b ∈ blocks, ∀ f, b.node.formula = some f → f.rules ≠ [] →
        b.records.map (l.get · Column.formulaOperand) =
          (Sheet.rulesByOperation f.rules).map fun c => Sheet.operandCell c.2 := by
  have header : Column.formulaOperand ∈ (Sheet.ofNodes nodes options).layout.header :=
    fixed_mem_header options (by decide)
  refine ⟨_, (Sheet.ofNodes nodes options).blocks options, header, ?_, ?_, ?_⟩
  · rw [Sheet.flatMap_blocks]
    rfl
  · rw [Sheet.blocks, Sheet.map_blocksFrom _ (·.2) fun _ _ => rfl]
    exact perm_written nodes options
  · intro b hb f hf some
    obtain ⟨i, n, key, -, rfl⟩ := mem_blocks options hb
    exact Sheet.map_get_records_block header key hf some

end Export

end Rollup

import Mathlib.Data.List.Basic
import Mathlib.Tactic.SplitIfs
import Rollup.Proofs.HierarchyRow
import Rollup.Proofs.Import.Outcome
import Rollup.Proofs.Text.Parts

/-!
# The operands that an import reads

The operands of a new node are texts from the rows of its group. A standard row has several in one
cell, which is split at the separator. A legacy row has one, the text of its cell as it stands.
Putting totals on the nodes leaves the operands alone.

Results:

* `mem_operands_hierarchyRow`: the operands of a row come from its cell.
* `notMem_of_mem_operandTexts`: those of a standard row do not contain the separator.
* `mem_operands_node`: the operands of a group come from its rows.
* `operands_entry`: totals leave the operands alone.
-/

namespace Rollup

/-- The operands of the formula of a node. -/
def Node.operands (n : Node) : List String :=
  (n.formula.map fun f => f.rules.map (·.operand)).getD []

theorem Node.operands_of_formula {n : Node} {f : Formula} (hf : n.formula = some f) :
    n.operands = f.rules.map (·.operand) := by
  rw [operands, hf]
  rfl

@[simp] theorem Node.operands_kept (n : Node) : n.kept.operands = n.operands := by
  have eq : n.kept.formula = n.formula.map Formula.kept := rfl
  rw [operands, eq, operands]
  cases n.formula with
  | none => rfl
  | some f => simp [Formula.kept]

/-! ## Rows -/

namespace Table

/-- The texts that a row gives as operands. -/
def operandTexts (t : Table) (d : Dialect) (row : Row) : List String :=
  match d with
  | .standard => t.parts row Column.formulaOperand
  | .legacy => (t.text? row Column.formulaParamRef).toList

variable {t : Table} {d : Dialect} {columns : List String} {row : Row} {o : String}

theorem operands_standardRow {r : HierarchyRow} (read : t.standardRow columns row = .ok r) :
    r.formula.operands = t.parts row Column.formulaOperand := by
  unfold standardRow at read
  iterate 7
    obtain ⟨_, -, read⟩ := Except.bind_eq_ok_iff.mp read
  obtain ⟨formula, formulaRead, read⟩ := Except.bind_eq_ok_iff.mp read
  unfold standardFormula at formulaRead
  iterate 4
    obtain ⟨_, -, formulaRead⟩ := Except.bind_eq_ok_iff.mp formulaRead
  cases formulaRead
  cases read
  rfl

theorem operands_legacyRow {r : HierarchyRow} (read : t.legacyRow columns row = .ok r) :
    ∀ o ∈ r.formula.operands, o = (t.text? row Column.formulaParamRef).getD "" := by
  unfold legacyRow at read
  iterate 8
    obtain ⟨_, -, read⟩ := Except.bind_eq_ok_iff.mp read
  cases read
  dsimp only
  split_ifs <;> simp

/-- An operand of a row is empty or one of the texts that the row gives. -/
theorem mem_operands_hierarchyRow {r : HierarchyRow} (read : t.hierarchyRow d columns row = .ok r)
    (mem : o ∈ r.formula.operands) : o = "" ∨ o ∈ t.operandTexts d row := by
  cases d with
  | standard =>
    rw [operands_standardRow read] at mem
    exact Or.inr mem
  | legacy =>
    have whole := operands_legacyRow read o mem
    rw [operandTexts, Option.mem_toList]
    cases cell : t.text? row Column.formulaParamRef with
    | none =>
      rw [cell] at whole
      exact Or.inl whole
    | some text =>
      rw [cell] at whole
      exact Or.inr (congrArg some whole.symm)

theorem trimmed_operandTexts (mem : o ∈ t.operandTexts d row) : Text.trim o = o := by
  cases d with
  | standard =>
    rw [operandTexts, parts] at mem
    split at mem
    · cases mem
    · obtain ⟨part, -, rfl⟩ := List.mem_map.mp mem
      exact Text.trim_trim part
  | legacy => exact (text?_eq_some (Option.mem_toList.mp mem)).1

/-- The operands of a standard row are split at the separator. -/
theorem notMem_of_mem_operandTexts (mem : o ∈ t.operandTexts .standard row) :
    Column.valueSeparator ∉ o.toList := by
  rw [operandTexts, parts] at mem
  split at mem
  · cases mem
  · obtain ⟨part, hpart, rfl⟩ := List.mem_map.mp mem
    exact Text.notMem_trim (Text.notMem_of_mem_split hpart)

end Table

/-! ## Groups -/

namespace RowGroup

theorem operand_ruleAt {row : HierarchyRow} {count i : Nat} {q : Rule × List String}
    (made : ruleAt row count i = some q) :
    q.1.operand = "" ∨ ∃ o ∈ row.formula.operands, q.1.operand = Text.trim o := by
  unfold ruleAt at made
  dsimp only at made
  split at made
  · cases made
  · obtain rfl := Option.some.inj made
    cases here : row.formula.operands[i]? with
    | none => exact Or.inl rfl
    | some o => exact Or.inr ⟨o, List.mem_of_getElem? here, rfl⟩

/-- A rule was there before, or its operand is one of the row. -/
theorem mem_addRules {acc : List Rule × List String} {row : HierarchyRow} {r : Rule}
    (mem : r ∈ (addRules acc row).1) :
    r ∈ acc.1 ∨ r.operand = "" ∨ ∃ o ∈ row.formula.operands, r.operand = Text.trim o := by
  unfold addRules at mem
  dsimp only at mem
  generalize List.range _ = positions at mem
  induction positions generalizing acc with
  | nil => exact Or.inl mem
  | cons i positions ih =>
    rw [List.foldl_cons] at mem
    rcases ih mem with before | added
    · split at before
      · exact Or.inl before
      · rename_i rule warnings made
        rcases List.mem_append.mp before with before | last
        · exact Or.inl before
        · rw [List.mem_singleton.mp last]
          exact Or.inr (operand_ruleAt made)
    · exact Or.inr added

theorem mem_foldl_addRules {rows : List HierarchyRow} {acc : List Rule × List String} {r : Rule}
    (mem : r ∈ (rows.foldl addRules acc).1) :
    r ∈ acc.1 ∨ r.operand = "" ∨
      ∃ row ∈ rows, ∃ o ∈ row.formula.operands, r.operand = Text.trim o := by
  induction rows generalizing acc with
  | nil => exact Or.inl mem
  | cons row rows ih =>
    rw [List.foldl_cons] at mem
    rcases ih mem with before | empty | ⟨row', hrow, given⟩
    · rcases mem_addRules before with before | empty | given
      · exact Or.inl before
      · exact Or.inr (Or.inl empty)
      · exact Or.inr (Or.inr ⟨row, List.mem_cons_self, given⟩)
    · exact Or.inr (Or.inl empty)
    · exact Or.inr (Or.inr ⟨row', List.mem_cons_of_mem _ hrow, given⟩)

/-- The operands of a group come from its rows. -/
theorem mem_operands_node {g : RowGroup} {project o : String}
    (mem : o ∈ (g.node project).operands) :
    o = "" ∨ ∃ row ∈ g.rows, ∃ text ∈ row.formula.operands, o = Text.trim text := by
  have formula : (g.node project).formula = g.formula? := rfl
  rw [Node.operands, formula, formula?] at mem
  split_ifs at mem
  · cases mem
  · obtain ⟨r, hr, rfl⟩ := List.mem_map.mp mem
    exact (mem_foldl_addRules hr).resolve_left (by simp)

end RowGroup

/-! ## Totals -/

namespace TotalPlan

variable (t : TotalPlan)

theorem operands_attach (groups : List RowGroup) (n : Node) :
    (t.attach groups n).operands = n.operands := rfl

/-- A formula is dropped only if it has no rules. -/
theorem operands_stripLabel (n : Node) : (t.stripLabel n).operands = n.operands := by
  unfold stripLabel
  cases formula : n.formula with
  | none => rfl
  | some f =>
    dsimp only
    split_ifs with bare
    · rw [Node.operands_of_formula formula, bare.2.1]
      rfl
    · rfl

end TotalPlan

namespace Assembly

theorem operands_modifyNode (b : Batch) (i : Nat) {f : Node → Node}
    (stays : ∀ n, (f n).operands = n.operands) :
    (modifyNode b i f).entries.map (·.node.operands) = b.entries.map (·.node.operands) := by
  refine List.ext_getElem? fun j => ?_
  simp only [modifyNode, Batch.modify, List.getElem?_map, List.getElem?_modify]
  cases b.entries[j]? with
  | none => rfl
  | some e => split_ifs <;> simp [stays]

theorem operands_addTotal (p : ImportPlan) (a : Assembly) (t : TotalPlan) :
    (addTotal p a t).batch.entries.map (·.node.operands) =
      a.batch.entries.map (·.node.operands) := by
  have strip : ∀ (members : List Nat) (b : Batch),
      (members.foldl (fun b j => modifyNode b j t.stripLabel) b).entries.map (·.node.operands) =
        b.entries.map (·.node.operands) := by
    intro members
    induction members with
    | nil => exact fun _ => rfl
    | cons j members ih =>
      intro b
      rw [List.foldl_cons, ih, operands_modifyNode b j t.operands_stripLabel]
  unfold addTotal
  cases a.placed.lookup t.parent with
  | none => rfl
  | some i =>
    dsimp only
    rw [strip, operands_modifyNode _ i (t.operands_attach p.groups)]

end Assembly

namespace ImportPlan

/-- Totals leave the operands alone. -/
theorem operands_totalled (p : ImportPlan) (stored : List Node) :
    (p.totalled stored).entries.map (·.node.operands) =
      (p.filled stored).entries.map (·.node.operands) := by
  have run : ∀ (ts : List TotalPlan) (a : Assembly),
      (ts.foldl (Assembly.addTotal p) a).batch.entries.map (·.node.operands) =
        a.batch.entries.map (·.node.operands) := by
    intro ts
    induction ts with
    | nil => exact fun _ => rfl
    | cons t ts ih =>
      intro a
      rw [List.foldl_cons, ih, Assembly.operands_addTotal]
  exact run p.totals _

/-- A new entry has the operands of its draft. -/
theorem operands_entry {p : ImportPlan} {stored : List Node} {added : List Placeholder}
    (drafted : (p.filled stored).Drafted stored p.project (p.drafts stored added)) {k : Nat}
    {e draft : BatchEntry} (here : (p.totalled stored).entries[k + stored.length]? = some e)
    (there : (p.drafts stored added)[k]? = some draft) :
    e.node.operands = draft.node.operands := by
  have same := congrArg (·[k + stored.length]?) (p.operands_totalled stored)
  simp only [List.getElem?_map] at same
  rw [here, drafted.entries, List.getElem?_append_right (by simp), List.length_map,
    Nat.add_sub_cancel, there] at same
  exact Option.some.inj same

end ImportPlan

end Rollup

import Mathlib.Data.List.Basic
import Mathlib.Data.List.Forall2
import Rollup.Proofs.Export.Groups
import Rollup.Proofs.Export.Plan

/-!
# Formulas of an export

The rows of a node with a formula hold the rules of one operation each, as three lists side by side.
Reading the rows back gives the formula, with the rules of an operation next to each other.

Results:

* `perm_grouped`: the order in which rules are written.
* `states_ruleCells`: the rules that a row states.
* `formula?_group`: the formula of a group of an export.
* `formula?_hierarchy`: the formula that an export is read back with.
-/

namespace Rollup

/-! ## The order of written rules -/

/-- The rules by operation, in the order in which the operations first occur. -/
def Rule.grouped (rules : List Rule) : List Rule :=
  (distinct (rules.map (·.operation))).flatMap fun op => rules.filter (·.operation = op)

theorem perm_flatMap_filter {κ α : Type} [DecidableEq κ] (key : α → κ) {ks : List κ}
    (nodup : ks.Nodup) : ∀ {xs : List α}, (∀ x ∈ xs, key x ∈ ks) →
      (ks.flatMap fun k => xs.filter (key · = k)).Perm xs := by
  induction ks with
  | nil =>
    intro xs known
    rw [List.eq_nil_iff_forall_not_mem.mpr fun x hx => absurd (known x hx) (by simp)]
    exact List.Perm.refl _
  | cons k ks ih =>
    intro xs known
    rw [List.nodup_cons] at nodup
    have others : (ks.flatMap fun j => xs.filter (key · = j)) =
        ks.flatMap fun j => (xs.filter fun x => !decide (key x = k)).filter (key · = j) := by
      refine List.flatMap_congr fun j hj => ?_
      rw [List.filter_filter]
      refine List.filter_congr fun x _ => ?_
      by_cases same : key x = j
      · have apart : key x ≠ k := by
          rintro rfl
          exact nodup.1 (same ▸ hj)
        rw [decide_eq_false apart]
        simp
      · simp [same]
    rw [List.flatMap_cons, others]
    refine (List.Perm.append_left _ (ih nodup.2 ?_)).trans (List.filter_append_perm _ xs)
    intro x hx
    rw [List.mem_filter] at hx
    rcases List.mem_cons.mp (known x hx.1) with same | mem
    · simp [same] at hx
    · exact mem

/-- Grouping keeps all rules. -/
theorem Rule.perm_grouped (rules : List Rule) : (grouped rules).Perm rules :=
  perm_flatMap_filter _ (nodup_distinct _) fun _ hr =>
    mem_distinct.mpr (List.mem_map_of_mem (f := (·.operation)) hr)

/-- A rule that a cell can hold: its operand is one trimmed value, and it has an operand or a
    constant. -/
structure Rule.IsPlain (r : Rule) : Prop where
  trimmed : Text.trim r.operand = r.operand
  single : Column.valueSeparator ∉ r.operand.toList
  filled : r.operand ≠ "" ∨ r.constant.isSome = true

/-! ## Rows that state rules -/

namespace RowGroup

/-- A row states rules, at whatever place of the formula it stands. -/
structure States (row : HierarchyRow) (rules : List Rule) : Prop where
  positions : max row.formula.operands.length row.formula.constants.length = rules.length
  rule : ∀ {i : Nat} {r : Rule}, rules[i]? = some r → ∀ count, ruleAt row count i = some (r, [])

/-- A fold over the positions of a list that adds the element at each. -/
theorem foldl_range_append {α β : Type} {step : List α × β → Nat → List α × β} {xs : List α}
    (adds : ∀ acc i x, xs[i]? = some x → step acc i = (acc.1 ++ [x], acc.2)) (acc : List α × β) :
    (List.range xs.length).foldl step acc = (acc.1 ++ xs, acc.2) := by
  -- after `k` positions the first `k` elements have been added
  have run : ∀ k, k ≤ xs.length →
      (List.range k).foldl step acc = (acc.1 ++ xs.take k, acc.2) := by
    intro k
    induction k with
    | zero => intro _; simp
    | succ k ih =>
      intro bound
      have here : xs[k]? = some xs[k] := List.getElem?_eq_getElem bound
      rw [List.range_succ, List.foldl_append, ih (by omega), List.foldl_cons, List.foldl_nil,
        adds _ k _ here, List.take_add_one, here, Option.toList_some, List.append_assoc]
  rw [run _ (Nat.le_refl _), List.take_length]

theorem addRules_of_states {row : HierarchyRow} {rules : List Rule} (states : States row rules)
    (acc : List Rule × List String) : addRules acc row = (acc.1 ++ rules, acc.2) := by
  unfold addRules
  dsimp only
  rw [states.positions]
  refine foldl_range_append (fun acc i r here => ?_) acc
  simp only [states.rule here, List.append_nil]

theorem foldl_addRules {α : Type} {row : α → HierarchyRow} {rules : α → List Rule} {xs : List α}
    (states : ∀ x ∈ xs, States (row x) (rules x)) : ∀ acc : List Rule × List String,
      (xs.map row).foldl addRules acc = (acc.1 ++ xs.flatMap rules, acc.2) := by
  induction xs with
  | nil => intro acc; simp
  | cons x xs ih =>
    intro acc
    rw [List.map_cons, List.foldl_cons, addRules_of_states (states x (by simp)),
      ih fun y hy => states y (by simp [hy]), List.flatMap_cons, List.append_assoc]

end RowGroup

namespace Export

/-! ## The cells of rules -/

theorem lastValue_append (front back : Cells) (c : String) :
    lastValue (front ++ back) c =
      ((back.reverse.lookup c).or (front.reverse.lookup c)).getD "" := by
  rw [lastValue, List.reverse_append, List.lookup_append]

namespace Sheet

theorem lookup_ruleCells (operation : Operation) (rules : List Rule) :
    (ruleCells operation rules).reverse.lookup Column.formulaOperation = some operation.keyword ∧
    (ruleCells operation rules).reverse.lookup Column.formulaOperand =
      some (joined (rules.map (·.operand))) ∧
    (ruleCells operation rules).reverse.lookup Column.formulaPrecedence =
      some (joined (rules.map fun r => toString r.precedence)) ∧
    (ruleCells operation rules).reverse.lookup Column.formulaConstant =
      (if rules.any (·.constant.isSome) then
        some (joined (rules.map fun r => (r.constant.map Binary64.text).getD "")) else none) ∧
    (ruleCells operation rules).reverse.lookup Column.formulaGroupName = none ∧
    (ruleCells operation rules).reverse.lookup Column.formulaExpression = none := by
  unfold ruleCells
  split <;>
    simp [List.lookup_cons, Column.formulaOperation, Column.formulaOperand, Column.formulaPrecedence,
      Column.formulaConstant, Column.formulaGroupName, Column.formulaExpression]

/-- The cells of a formula that only the main row has. -/
def headCells (f : Formula) : Cells :=
  (Column.formulaGroupName, f.groupName) ::
    (f.expression.map fun e => (Column.formulaExpression, e)).toList

theorem lookup_headCells (f : Formula) :
    (headCells f).reverse.lookup Column.formulaGroupName = some f.groupName ∧
    (headCells f).reverse.lookup Column.formulaExpression = f.expression ∧
    (headCells f).reverse.lookup Column.formulaOperand = none ∧
    (headCells f).reverse.lookup Column.formulaConstant = none := by
  unfold headCells
  cases f.expression <;>
    simp [List.lookup_cons, Column.formulaGroupName, Column.formulaExpression, Column.formulaOperand,
      Column.formulaConstant]

section Formula

variable {n : Node} {f : Formula} (hf : n.formula = some f)

include hf

/-- The formula cells of a main row: the label, the expression, and the rules of one operation. -/
theorem mainFormulaCells_eq (s : Sheet) : s.mainFormulaCells n = headCells f ++
    ((rulesByOperation f.rules).head?.map fun b => ruleCells b.1 b.2).getD [] := by
  unfold mainFormulaCells
  rw [hf]
  rfl

/-- The cells of the further rows: a key, the label, and the rules of one operation each. -/
theorem extraFormulaCells_eq (key : Nat → Int) : extraFormulaCells n key =
    ((rulesByOperation f.rules).drop 1).zipIdx.map fun p =>
      [(Column.xrefKey, toString (key p.2)), (Column.formulaGroupName, f.groupName)] ++
        ruleCells p.1.1 p.1.2 := by
  unfold extraFormulaCells
  rw [hf]

end Formula

end Sheet

section Rules

variable {rules : List Rule} (plain : ∀ r ∈ rules, r.IsPlain)

include plain

/-- The operands are read back, except that a single empty one leaves the cell empty. -/
theorem valuesOf_operands :
    valuesOf (Sheet.joined (rules.map (·.operand))) = rules.map (·.operand) ∨
      valuesOf (Sheet.joined (rules.map (·.operand))) = [] ∧
        (rules = [] ∨ ∃ r, rules = [r] ∧ r.operand = "") := by
  by_cases empty : Sheet.joined (rules.map (·.operand)) = ""
  · refine Or.inr ⟨by rw [empty, valuesOf_empty], ?_⟩
    match rules, plain, empty with
    | [], _, _ => exact Or.inl rfl
    | [r], _, empty =>
      refine Or.inr ⟨r, rfl, ?_⟩
      by_contra filled
      exact join_ne_empty (List.mem_singleton_self r.operand) (Or.inl filled) empty
    | r :: r' :: rest, _, empty =>
      exact absurd empty (join_ne_empty (List.mem_cons_self) (Or.inr (by simp)))
  · refine Or.inl (valuesOf_join ?_ empty)
    intro part hpart
    obtain ⟨r, hr, rfl⟩ := List.mem_map.mp hpart
    exact ⟨(plain r hr).trimmed, (plain r hr).single⟩

omit plain in
theorem valuesOf_precedences :
    valuesOf (Sheet.joined (rules.map fun r => toString r.precedence)) =
      rules.map fun r => toString r.precedence := by
  cases rules with
  | nil => exact valuesOf_empty
  | cons r rest =>
    refine valuesOf_join ?_ ?_
    · intro part hpart
      obtain ⟨r, -, rfl⟩ := List.mem_map.mp hpart
      exact trimmed_toString r.precedence
    · refine join_ne_empty List.mem_cons_self (Or.inl ?_)
      exact (Literal.text?_eq_some (Literal.text?_of_numeral (Literal.numeral_toString _))).2

omit plain in
theorem valuesOf_constants (any : rules.any (·.constant.isSome) = true) :
    valuesOf (Sheet.joined (rules.map fun r => (r.constant.map Binary64.text).getD "")) =
      rules.map fun r => (r.constant.map Binary64.text).getD "" := by
  refine valuesOf_join ?_ ?_
  · intro part hpart
    obtain ⟨r, -, rfl⟩ := List.mem_map.mp hpart
    exact trimmed_constant r.constant
  · obtain ⟨r, hr, constant⟩ := List.any_eq_true.mp any
    obtain ⟨x, hx⟩ := Option.isSome_iff_exists.mp constant
    refine join_ne_empty (List.mem_map_of_mem hr) (Or.inl ?_)
    rw [hx]
    exact (Literal.text?_eq_some (Literal.text?_of_numeral (Decimal.numeral_positional _))).2

/-- The operand at a position, where a cell without values stands for one empty operand. -/
theorem getElem?_valuesOf_operands {i : Nat} {r : Rule} (here : rules[i]? = some r) :
    ((valuesOf (Sheet.joined (rules.map (·.operand))))[i]?).getD "" = r.operand := by
  rcases valuesOf_operands plain with values | ⟨none, single⟩
  · rw [values, List.getElem?_map, here, Option.map_some, Option.getD_some]
  · rcases single with rfl | ⟨r', rfl, empty⟩
    · cases here
    · rw [none]
      obtain rfl := List.mem_singleton.mp (List.mem_of_getElem? here)
      exact empty.symm

omit plain in
/-- The constant at a position, where an absent column stands for rules without constants. -/
theorem getElem?_constants {i : Nat} {r : Rule} (here : rules[i]? = some r) :
    ((if rules.any (·.constant.isSome) then rules.map (·.constant) else [])[i]?).join =
      r.constant := by
  split_ifs with any
  · rw [List.getElem?_map, here, Option.map_some, Option.join_some]
  · cases constant : r.constant with
    | none => rfl
    | some x =>
      refine absurd (List.any_eq_true.mpr ⟨r, List.mem_of_getElem? here, ?_⟩) any
      rw [constant]
      rfl

/-- There are as many positions as rules: a rule without an operand has a constant. -/
theorem max_length_valuesOf :
    max (valuesOf (Sheet.joined (rules.map (·.operand)))).length
      (if rules.any (·.constant.isSome) then rules.map (·.constant) else []).length =
        rules.length := by
  rcases valuesOf_operands plain with values | ⟨none, single⟩
  · rw [values, List.length_map]
    split_ifs <;> simp
  · rw [none]
    rcases single with rfl | ⟨r, rfl, empty⟩
    · simp
    · have constant := (plain r (by simp)).filled.resolve_left (fun filled => filled empty)
      simp [constant]

end Rules

/-! ## The formula part of rules -/

section Part

variable {front : Cells} {operation : Operation} {rules : List Rule}

theorem formulaPart_operation :
    (formulaPart (front ++ Sheet.ruleCells operation rules)).operation = some operation := by
  rw [formulaPart]
  dsimp only
  rw [lastValue_append, (Sheet.lookup_ruleCells operation rules).1, Option.some_or,
    Option.getD_some, Operation.text?_keyword, Option.bind_some, Operation.read?_keyword]

theorem formulaPart_operands :
    (formulaPart (front ++ Sheet.ruleCells operation rules)).operands =
      valuesOf (Sheet.joined (rules.map (·.operand))) := by
  rw [formulaPart]
  dsimp only
  rw [lastValue_append, (Sheet.lookup_ruleCells operation rules).2.1, Option.some_or,
    Option.getD_some]

theorem formulaPart_precedences
    (precedences : ∀ r ∈ rules, Literal.inRange r.precedence = true) :
    (formulaPart (front ++ Sheet.ruleCells operation rules)).precedences =
      rules.map fun r => some r.precedence := by
  rw [formulaPart]
  dsimp only
  rw [lastValue_append, (Sheet.lookup_ruleCells operation rules).2.2.1, Option.some_or,
    Option.getD_some, valuesOf_precedences, List.map_map]
  refine List.map_congr_left fun r hr => ?_
  have filled := (Literal.text?_eq_some (Literal.text?_of_numeral
    (Literal.numeral_toString r.precedence))).2
  rw [Function.comp_apply, if_neg filled, Literal.int?_toString (precedences r hr)]

theorem formulaPart_constants (constants : ∀ r ∈ rules, ∀ x, r.constant = some x → x.Canonical)
    (apart : front.reverse.lookup Column.formulaConstant = none) :
    (formulaPart (front ++ Sheet.ruleCells operation rules)).constants =
      if rules.any (·.constant.isSome) then rules.map (·.constant) else [] := by
  rw [formulaPart]
  dsimp only
  rw [lastValue_append, (Sheet.lookup_ruleCells operation rules).2.2.2.1]
  split_ifs with any
  · rw [Option.some_or, Option.getD_some, valuesOf_constants any, List.map_map]
    refine List.map_congr_left fun r hr => ?_
    rw [Function.comp_apply]
    cases constant : r.constant with
    | none => rfl
    | some x =>
      have filled := (Literal.text?_eq_some (Literal.text?_of_numeral
        (Decimal.numeral_positional (x.shortest .upper)))).2
      rw [Option.map_some, Option.getD_some, if_neg (show x.text ≠ "" from filled),
        Literal.number?_text (constants r hr x constant)]
  · rw [apart, Option.or_none, Option.getD_none, valuesOf_empty, List.map_nil]

/-- A row with the cells of rules states the rules. -/
theorem states_ruleCells (plain : ∀ r ∈ rules, r.IsPlain)
    (same : ∀ r ∈ rules, r.operation = operation)
    (precedences : ∀ r ∈ rules, Literal.inRange r.precedence = true)
    (constants : ∀ r ∈ rules, ∀ x, r.constant = some x → x.Canonical) {row : HierarchyRow}
    (part : row.formula = formulaPart (front ++ Sheet.ruleCells operation rules))
    (apart : front.reverse.lookup Column.formulaConstant = none) : RowGroup.States row rules := by
  have operands : row.formula.operands = _ := part ▸ formulaPart_operands
  have constantsEq : row.formula.constants = _ := part ▸ formulaPart_constants constants apart
  constructor
  · rw [operands, constantsEq, max_length_valuesOf plain]
  · intro i r here count
    have mem := List.mem_of_getElem? here
    have filled : ¬ (r.operand = "" && r.constant.isNone) = true := by
      rcases (plain r mem).filled with filled | filled
      · simp [filled]
      · simp [Option.isSome_iff_ne_none.mp filled]
    have operationEq : row.formula.operation = some operation := part ▸ formulaPart_operation
    have precedence : (row.formula.precedences[i]?).join = some r.precedence := by
      rw [part, formulaPart_precedences precedences, List.getElem?_map, here, Option.map_some,
        Option.join_some]
    unfold RowGroup.ruleAt
    dsimp only
    rw [operands, constantsEq, getElem?_valuesOf_operands plain here, getElem?_constants here,
      (plain r mem).trimmed, if_neg filled, operationEq, precedence, Option.getD_some,
      Option.getD_some, ← same r mem]
    rfl

end Part

/-! ## The formula of a group -/

/-- The rules of a formula as its rows hold them, one after the other. -/
theorem flatMap_rulesByOperation (rules : List Rule) :
    (Sheet.rulesByOperation rules).flatMap (·.2) = Rule.grouped rules := by
  rw [Sheet.rulesByOperation, buckets_eq, List.flatMap_map, List.map_map]
  refine List.flatMap_congr fun op _ => ?_
  rw [List.filter_map, List.map_map]
  simp [Function.comp_def]

theorem operation_of_bucket {rules : List Rule} {b : Operation × List Rule}
    (mem : b ∈ Sheet.rulesByOperation rules) : ∀ r ∈ b.2, r.operation = b.1 := by
  intro r hr
  obtain ⟨r', -, eq⟩ := List.mem_map.mp ((mem_buckets mem).2 r hr)
  obtain ⟨op, rfl⟩ := Prod.mk.inj eq
  exact op

/-- Further rows have no expression. -/
theorem expression_further (label : String) (key : Int) (b : Operation × List Rule) :
    (formulaPart ([(Column.xrefKey, toString key), (Column.formulaGroupName, label)] ++
      Sheet.ruleCells b.1 b.2)).expression = none := by
  have front : ([(Column.xrefKey, toString key), (Column.formulaGroupName, label)] :
      Cells).reverse.lookup Column.formulaExpression = none := by
    simp [List.lookup_cons, Column.formulaExpression, Column.xrefKey, Column.formulaGroupName]
  obtain ⟨-, -, -, -, -, back⟩ := Sheet.lookup_ruleCells b.1 b.2
  rw [formulaPart]
  dsimp only
  rw [lastValue_append, back, front]
  rfl

/-- The rules in the main row leave its label and its expression alone. -/
theorem lookup_firstRules (f : Formula) {c : String}
    (column : c = Column.formulaGroupName ∨ c = Column.formulaExpression) :
    (((Sheet.rulesByOperation f.rules).head?.map fun b =>
      Sheet.ruleCells b.1 b.2).getD []).reverse.lookup c = none := by
  cases (Sheet.rulesByOperation f.rules).head? with
  | none => rfl
  | some b =>
    have cells := Sheet.lookup_ruleCells b.1 b.2
    rcases column with rfl | rfl
    · exact cells.2.2.2.2.1
    · exact cells.2.2.2.2.2

section Group

variable {s : Sheet} {w : Window} {number : Nat} {key : Nat → Int} {q : Nat × Node} {f : Formula}
  (hf : q.2.formula = some f)

include hf

/-- The main row of a group with a formula. -/
theorem formula_leader : (s.group w number key q).leader.formula = formulaPart
    (Sheet.headCells f ++
      ((Sheet.rulesByOperation f.rules).head?.map fun b => Sheet.ruleCells b.1 b.2).getD []) := by
  rw [← Sheet.mainFormulaCells_eq hf s]
  rfl

/-- The further rows of a group with a formula. -/
theorem others_group : (s.group w number key q).others =
    ((Sheet.rulesByOperation f.rules).drop 1).zipIdx.map fun p => s.row (number + 1 + p.2)
      ⟨q.1, q.2, key p.2, [(Column.xrefKey, toString (key p.2)),
        (Column.formulaGroupName, f.groupName)] ++ Sheet.ruleCells p.1.1 p.1.2⟩ := by
  refine List.ext_getElem? fun k => ?_
  unfold Sheet.group Sheet.extraFillings
  rw [Sheet.extraFormulaCells_eq hf]
  simp only [List.getElem?_map, List.getElem?_zipIdx, Option.map_map, Function.comp_def,
    Nat.zero_add]

/-- The main row names the formula. -/
theorem firstOf_groupName_group (label : Literal.Plain f.groupName) :
    (s.group w number key q).firstOf (·.formula.groupName) = some f.groupName := by
  have first : (s.group w number key q).leader.formula.groupName = some f.groupName := by
    rw [formula_leader hf, formulaPart]
    dsimp only
    rw [lastValue_append, lookup_firstRules f (Or.inl rfl), Option.none_or,
      (Sheet.lookup_headCells f).1, Option.getD_some]
    exact label
  rw [RowGroup.firstOf, RowGroup.rows, List.findSome?_cons, first]

/-- Only the main row has the expression. -/
theorem firstOf_expression_group (expression : ∀ e, f.expression = some e → Literal.Plain e) :
    (s.group w number key q).firstOf (·.formula.expression) = f.expression := by
  have first : (s.group w number key q).leader.formula.expression = f.expression := by
    rw [formula_leader hf, formulaPart]
    dsimp only
    rw [lastValue_append, lookup_firstRules f (Or.inr rfl), Option.none_or,
      (Sheet.lookup_headCells f).2.1]
    cases value : f.expression with
    | none => rfl
    | some e => exact expression e value
  have others : ∀ row ∈ (s.group w number key q).others, row.formula.expression = none := by
    rw [others_group hf]
    intro row hrow
    obtain ⟨p, -, rfl⟩ := List.mem_map.mp hrow
    exact expression_further f.groupName _ p.1
  rw [RowGroup.firstOf, RowGroup.rows, List.findSome?_cons, first]
  cases f.expression with
  | some e => rfl
  | none => exact List.findSome?_eq_none_iff.mpr others

variable (node : q.2.Legible) (plain : ∀ r ∈ f.rules, r.IsPlain)

include node plain

theorem states_bucket {b : Operation × List Rule} (mem : b ∈ Sheet.rulesByOperation f.rules)
    {row : HierarchyRow} {front : Cells}
    (part : row.formula = formulaPart (front ++ Sheet.ruleCells b.1 b.2))
    (apart : front.reverse.lookup Column.formulaConstant = none) : RowGroup.States row b.2 := by
  have rule := Sheet.mem_rulesByOperation mem
  exact states_ruleCells (fun r hr => plain r (rule r hr)) (operation_of_bucket mem)
    (fun r hr => node.precedences f hf r (rule r hr))
    (fun r hr => node.constants f hf r (rule r hr)) part apart

theorem rules_group : (s.group w number key q).rules = (Rule.grouped f.rules, []) := by
  have leader : (s.group w number key q).leader.formula = _ := formula_leader hf
  obtain ⟨-, -, operand, constant⟩ := Sheet.lookup_headCells f
  have main : RowGroup.States (s.group w number key q).leader
      (((Sheet.rulesByOperation f.rules).head?.map (·.2)).getD []) := by
    cases first : (Sheet.rulesByOperation f.rules).head? with
    | some b =>
      rw [first] at leader
      exact states_bucket hf node plain (List.mem_of_head? first) leader constant
    | none =>
      rw [first, Option.map_none, Option.getD_none, List.append_nil] at leader
      refine ⟨?_, fun here => by cases here⟩
      rw [leader, formulaPart]
      dsimp only
      rw [lastValue, operand, lastValue, constant, Option.getD_none, valuesOf_empty]
      rfl
  have further : ∀ p ∈ ((Sheet.rulesByOperation f.rules).drop 1).zipIdx,
      RowGroup.States (s.row (number + 1 + p.2) ⟨q.1, q.2, key p.2,
        [(Column.xrefKey, toString (key p.2)), (Column.formulaGroupName, f.groupName)] ++
          Sheet.ruleCells p.1.1 p.1.2⟩) p.1.2 := by
    intro p hp
    refine states_bucket hf node plain
      (List.mem_of_mem_drop (List.fst_mem_of_mem_zipIdx hp)) rfl ?_
    simp [List.lookup_cons, Column.formulaConstant, Column.xrefKey, Column.formulaGroupName]
  rw [RowGroup.rules, RowGroup.rows, List.foldl_cons, RowGroup.addRules_of_states main,
    others_group hf, RowGroup.foldl_addRules further, ← flatMap_rulesByOperation]
  have later : ((Sheet.rulesByOperation f.rules).drop 1).zipIdx.flatMap (fun p => p.1.2) =
      ((Sheet.rulesByOperation f.rules).drop 1).flatMap (·.2) := by
    conv_rhs => rw [← List.zipIdx_map_fst 0 ((Sheet.rulesByOperation f.rules).drop 1)]
    rw [List.flatMap_map]
  rw [later]
  cases Sheet.rulesByOperation f.rules <;> simp

/-- A group of an export is read as the formula of its node. -/
theorem formula?_group (label : Literal.Plain f.groupName)
    (expression : ∀ e, f.expression = some e → Literal.Plain e) :
    (s.group w number key q).formula? =
      some ⟨f.groupName, q.2.hierarchyId, Rule.grouped f.rules, f.expression⟩ := by
  unfold RowGroup.formula?
  dsimp only
  rw [firstOf_groupName_group hf label, firstOf_expression_group hf expression,
    rules_group hf node plain]
  rfl

end Group

/-! ## The round trip -/

/-- As long as the counter of keys has 64 bits, the rows of a node with a formula are read back as the
    formula, with its rules grouped by operation, and without a warning. Nothing is asked of the tree
    and of the other texts. -/
theorem formula?_hierarchy {nodes : List Node} (h : Legible nodes) (options : ExportOptions)
    (fits : Literal.inRange (nextKey nodes options) = true) (w : Window) {n : Node}
    (hn : n ∈ nodes) (described : n.isPlaceholder = false) {f : Formula}
    (hf : n.formula = some f) (label : Literal.Plain f.groupName)
    (expression : ∀ e, f.expression = some e → Literal.Plain e)
    (plain : ∀ r ∈ f.rules, r.IsPlain) :
    ∃ t, Table.ofText (hierarchy nodes options) = .ok t ∧
      ∃ g ∈ (RowGroup.Standard.group w (Import.readRows t .standard)).1,
        g.hierarchyId = n.hierarchyId ∧
        (∀ g' ∈ (RowGroup.Standard.group w (Import.readRows t .standard)).1,
          g'.hierarchyId = n.hierarchyId → g' = g) ∧
        g.formula? = some ⟨f.groupName, n.hierarchyId, Rule.grouped f.rules, f.expression⟩ ∧
        (Rule.grouped f.rules).Perm f.rules ∧ g.nodeWarnings = [] := by
  refine ⟨_, ofText_hierarchy h (keysFit_of_nextKey options h fits), ?_⟩
  obtain ⟨i, here⟩ := List.getElem?_of_mem hn
  have mem : (i, n) ∈ (Sheet.ofNodes nodes options).written :=
    mem_written_iff.mpr ⟨here, described⟩
  have node : n.Legible := h.node n hn described
  obtain ⟨number, before, g, alike, id, only⟩ := exists_group_readRows fits h w mem
  refine ⟨g, ((only g).mpr rfl).1, id, fun g' hg' same => (only g').mp ⟨hg', same⟩, ?_,
    Rule.perm_grouped f.rules, ?_⟩
  · have labelled : ((Sheet.ofNodes nodes options).group w number
        ((Sheet.ofNodes nodes options).keysFrom options before) (i, n)).firstOf
        (·.formula.groupName) = some f.groupName := firstOf_groupName_group hf label
    rw [RowGroup.formula?_of_alike alike id (Option.isSome_of_eq_some labelled),
      formula?_group hf node plain label expression]
  · rw [RowGroup.nodeWarnings, RowGroup.rules_of_alike alike, rules_group hf node plain]

theorem formula?_hierarchy_twoNodes : ∃ t, Table.ofText (hierarchy twoNodes {}) = .ok t ∧
    ∃ g ∈ (RowGroup.Standard.group .standard (Import.readRows t .standard)).1,
      g.formula? = some ⟨"Net", "NET", [⟨.sum, "GROSS", 1, none⟩,
        ⟨.sum, "", 3, some ⟨false, 2 ^ 52, -51⟩⟩, ⟨.subtract, "", 2, some ⟨true, 3 * 2 ^ 51, -52⟩⟩],
        none⟩ ∧ g.nodeWarnings = [] := by
  obtain ⟨t, read, g, mem, -, -, formula, -, warnings⟩ :=
    formula?_hierarchy exportable_twoNodes.legible {} (by decide +kernel) .standard
      (List.mem_of_getElem? (i := 0) rfl) rfl rfl (by decide +kernel) (by simp) (by
        intro r hr
        simp only [List.mem_cons, List.not_mem_nil, or_false] at hr
        rcases hr with rfl | rfl | rfl <;>
          exact ⟨by decide +kernel, by decide +kernel, by decide⟩)
  exact ⟨t, read, g, mem, formula, warnings⟩

/-- A node with a formula of one rule, and a custom flag that is named like the column of
    operations. -/
def flagNamedOperation : Node :=
  { id := "1", hierarchyId := "NET", projectId := "A", name := "Net"
    customFlags := [("FORMULA_OPERATION", true)]
    formula := some ⟨"Net", "NET", [⟨.subtract, "GROSS", 1, none⟩], none⟩ }

/-- The flag takes the place of the operation, which stands in a second column of that name: the rule
    is read back without it. -/
theorem formula?_flagNamedOperation :
    flagNamedOperation.isPlaceholder = false ∧ Literal.Plain "Net" ∧
      Rule.IsPlain ⟨.subtract, "GROSS", 1, none⟩ ∧
      ∃ t, Table.ofText (hierarchy [flagNamedOperation] {}) = .ok t ∧
        (RowGroup.Standard.group .standard (Import.readRows t .standard)).1.map (fun g =>
          (g.hierarchyId, g.formula?, g.nodeWarnings)) =
        [("NET", some ⟨"Net", "NET", [⟨.sum, "GROSS", 1, none⟩], none⟩,
          ["row 1: formula operand 'GROSS' has no operation, using SUM"])] := by
  set s := Sheet.ofNodes [flagNamedOperation] {} with hs
  have canonical : ∀ c ∈ s.layout.header, Column.IsCanonical c := by
    have flags : s.customFlags = [Column.formulaOperation] := by decide +kernel
    have standard : ∀ c ∈ s.layout.header, c ∈ Column.standard s.levels := by
      intro c hc
      rcases List.mem_append.mp hc with standard | flag
      · exact standard
      · rw [flags, List.mem_singleton] at flag
        rw [flag]
        exact Column.mem_standard_of_fixed (by decide) _
    have levels : s.levels ≤ Column.maxLevels := levels_le {}
    exact fun c hc => Column.canonical_standard levels (standard c hc)
  have filled : ∀ r ∈ s.records {}, r.length = s.layout.header.length ∧
      ∃ cell ∈ r, Text.isAllBlank cell = false := by
    decide +kernel
  have read := Table.ofText_write (c := Column.hierarchyId) rfl (by decide) canonical (by decide)
    fun r hr => ⟨(filled r hr).1, (filled r hr).2⟩
  refine ⟨by decide +kernel, by decide +kernel, ⟨by decide +kernel, by decide, by decide⟩, _, read, ?_⟩
  rw [hs]
  decide +kernel

end Export

end Rollup

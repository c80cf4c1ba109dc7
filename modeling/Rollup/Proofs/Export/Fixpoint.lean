import Mathlib.Data.List.Basic
import Mathlib.Data.List.Forall2
import Rollup.Proofs.Export.Kept
import Rollup.Proofs.Export.Labels
import Rollup.Proofs.Export.Restored
import Rollup.Proofs.RowGroup.Total

/-!
# Exporting an imported export

Where no totals are involved, the nodes that an import of an export stores are exported as the
exported nodes would be after being kept: only the constants of formulas can differ, as a store may
change their last digits. The operands of formulas have to be ids of exported nodes, as other
operands may be resolved.

Results:

* `rulesByOperation_grouped`: rules that are grouped already stay in their groups.
* `formula_made`: the formulas of the stored nodes.
* `kept_of_hierarchy_eq`: a changed constant changes the text.
* `hierarchy_table`: the export of an imported export, and when it is the same text.
-/

namespace Rollup

/-- A formula that is read back as it is written: its texts are in the form in which they are kept,
    and its operands are ids of the given nodes or give way to a constant. -/
structure Formula.IsSettled (nodes : List Node) (f : Formula) : Prop where
  label : Literal.Plain f.groupName
  expression : ∀ e, f.expression = some e → Literal.Plain e
  operands : ∀ r ∈ f.rules, r.operand = "" ∨
    r.operand ∈ nodes.map (·.hierarchyId) ∧ Column.valueSeparator ∉ r.operand.toList
  constants : ∀ r ∈ f.rules, r.operand = "" → r.constant.isSome = true

namespace Export

/-! ## Grouped rules -/

/-- Rules that are grouped already stay in their groups. -/
theorem rulesByOperation_grouped (rules : List Rule) :
    Sheet.rulesByOperation (Rule.grouped rules) = Sheet.rulesByOperation rules := by
  set bs := Sheet.rulesByOperation rules with hbs
  have keyed : (Rule.grouped rules).map (fun r => (r.operation, r)) =
      bs.flatMap fun b => b.2.map fun r => (b.1, r) := by
    rw [← flatMap_rulesByOperation, List.map_flatMap]
    refine List.flatMap_congr fun b hb => List.map_congr_left fun r hr => ?_
    rw [operation_of_bucket hb r hr]
  have distinctKeys : (bs.map (·.1)).Nodup := by
    rw [hbs, Sheet.rulesByOperation, buckets_eq, List.map_map]
    exact (nodup_distinct _).map fun _ _ same => same
  have filled : ∀ b ∈ bs, b.2 ≠ [] := by
    intro b hb empty
    rw [hbs, Sheet.rulesByOperation, buckets_eq] at hb
    obtain ⟨op, hop, rfl⟩ := List.mem_map.mp hb
    obtain ⟨p, hp, rfl⟩ := List.mem_map.mp (mem_distinct.mp hop)
    have mem : p ∈ (rules.map fun r => (r.operation, r)).filter (·.1 = p.1) :=
      List.mem_filter.mpr ⟨hp, by simp⟩
    rw [List.map_eq_nil_iff.mp empty] at mem
    cases mem
  rw [Sheet.rulesByOperation, keyed, buckets_flatMap _ _ distinctKeys filled]
  exact List.map_id _

section Change

variable {change : Rule → Rule} (same : ∀ r, (change r).operation = r.operation)

include same

/-- What leaves the operations alone leaves the groups alone. -/
theorem rulesByOperation_map (rules : List Rule) : Sheet.rulesByOperation (rules.map change) =
    (Sheet.rulesByOperation rules).map fun b => (b.1, b.2.map change) := by
  have keyed : ((rules.map change).map fun r => (r.operation, r)) =
      (rules.map fun r => (r.operation, r)).map fun p => (p.1, change p.2) := by
    rw [List.map_map, List.map_map]
    exact List.map_congr_left fun r _ => by rw [Function.comp_apply, Function.comp_apply, same]
  rw [Sheet.rulesByOperation, keyed, buckets_map]
  rfl

theorem grouped_map (rules : List Rule) :
    Rule.grouped (rules.map change) = (Rule.grouped rules).map change := by
  rw [← flatMap_rulesByOperation, ← flatMap_rulesByOperation, rulesByOperation_map same,
    List.flatMap_map, List.map_flatMap]

end Change

/-- Formulas that differ in the order of their rules only have the same cells if their grouped rules
    are the same. -/
theorem formulaCells_congr {s s' : Sheet} {n m : Node} {f g : Formula} (hf : n.formula = some f)
    (hg : m.formula = some g) (label : g.groupName = f.groupName)
    (expression : g.expression = f.expression) (rules : g.rules = Rule.grouped f.rules) :
    s'.mainFormulaCells m = s.mainFormulaCells n ∧
      ∀ key, Sheet.extraFormulaCells m key = Sheet.extraFormulaCells n key := by
  have groups : Sheet.rulesByOperation g.rules = Sheet.rulesByOperation f.rules := by
    rw [rules, rulesByOperation_grouped]
  refine ⟨?_, fun key => ?_⟩
  · rw [Sheet.mainFormulaCells, Sheet.mainFormulaCells, hf, hg]
    dsimp only
    rw [label, expression, groups]
  · rw [Sheet.extraFormulaCells, Sheet.extraFormulaCells, hf, hg]
    dsimp only
    rw [label, groups]

/-! ## Nodes without totals -/

theorem childLabels_of_untotalled {nodes : List Node} (untotalled : ∀ n ∈ nodes, n.total? = none)
    (options : ExportOptions) : (Sheet.ofNodes nodes options).childLabels = [] := by
  have eq : (Sheet.ofNodes nodes options).childLabels =
      Sheet.totalLabels ((Sheet.ofNodes nodes options).written.map (·.2)) := rfl
  rw [eq, Sheet.totalLabels, List.flatMap_eq_nil_iff]
  intro n hn
  obtain ⟨q, hq, rfl⟩ := List.mem_map.mp hn
  rw [untotalled q.2 (List.mem_of_getElem? (getElem?_of_written hq))]
  cases q.2.formula <;> rfl

/-- A group whose node has no formula and whose row has no label is read without a formula. -/
theorem formula?_group_none {s : Sheet} {w : Window} {number : Nat} {key : Nat → Int}
    {q : Nat × Node} (none : q.2.formula = none) (cells : s.mainFormulaCells q.2 = []) :
    (s.group w number key q).formula? = Option.none := by
  have leader : (s.group w number key q).leader.formula = formulaPart (s.mainFormulaCells q.2) :=
    rfl
  rw [cells] at leader
  have rows : (s.group w number key q).rows = [(s.group w number key q).leader] := by
    rw [RowGroup.rows]
    unfold Sheet.group Sheet.extraFillings Sheet.extraFormulaCells
    rw [none]
    rfl
  have empty : ∀ c, lastValue [] c = "" := fun _ => rfl
  have states : RowGroup.States (s.group w number key q).leader [] := by
    refine ⟨?_, fun here => by cases here⟩
    rw [leader, formulaPart]
    dsimp only
    rw [empty, empty, valuesOf_empty]
    rfl
  have rules : (s.group w number key q).rules.1 = [] := by
    rw [RowGroup.rules, rows, List.foldl_cons, List.foldl_nil, RowGroup.addRules_of_states states]
    rfl
  have label : (s.group w number key q).firstOf (·.formula.groupName) = Option.none := by
    rw [RowGroup.firstOf, rows, List.findSome?_singleton, leader]
    exact groupName_of_absent rfl
  have expression : (s.group w number key q).firstOf (·.formula.expression) = Option.none := by
    rw [RowGroup.firstOf, rows, List.findSome?_singleton, leader, formulaPart]
    dsimp only
    rw [empty]
    rfl
  unfold RowGroup.formula?
  dsimp only
  rw [label, expression, rules]
  rfl

section Made

variable {nodes : List Node} (h : Exportable nodes) (untotalled : ∀ n ∈ nodes, n.total? = none)
  (settled : ∀ n ∈ nodes, ∀ f, n.formula = some f → f.IsSettled nodes)

include untotalled settled in
theorem plainLabels_of_settled : PlainLabels nodes where
  formula n hn f hf := (settled n hn f hf).label
  total n hn t ht := by
    rw [untotalled n hn] at ht
    cases ht

include h in
theorem isPlain_of_settled {f : Formula} (settled : f.IsSettled nodes) : ∀ r ∈ f.rules, r.IsPlain := by
  intro r hr
  rcases settled.operands r hr with empty | ⟨known, single⟩
  · exact ⟨by rw [empty]; decide +kernel, by rw [empty]; decide,
      Or.inr (settled.constants r hr empty)⟩
  · obtain ⟨n, hn, same⟩ := List.mem_map.mp known
    obtain ⟨trimmed, filled⟩ := Literal.text?_eq_some (h.node n hn).hierarchyId
    rw [same] at trimmed filled
    exact ⟨trimmed, single, Or.inl filled⟩

variable {options : ExportOptions} {w : Window} {project : String}

include h untotalled settled

/-- No totals are planned. -/
theorem totalled_plan : (plan nodes options w project).totalled [] =
    (plan nodes options w project).filled [] := by
  have plain := plainLabels_of_settled untotalled settled
  have none : (plan nodes options w project).totals = [] := by
    refine TotalPlan.plan_of_unaggregated fun u hu => ?_
    obtain ⟨q, hq, mem⟩ := (mem_uses h plain w).mp hu
    have total := untotalled q.2
      (List.mem_of_getElem? ((mem_written h options).mp (List.mem_of_getElem? hq)))
    cases stated : u.2.aggregation with
    | none => rfl
    | some a =>
      rw [stated] at mem
      obtain ⟨-, t, ht, -⟩ := Sheet.mem_labels_aggregation_iff.mp mem
      rw [total] at ht
      cases ht
  unfold ImportPlan.totalled
  dsimp only
  rw [none, List.foldl_nil]

variable {ids : List String} {made : List Node}
  (outcome : (plan nodes options w project).Outcome [] true [] ids made)

include outcome

/-- The formulas of the stored nodes. -/
theorem formula_made (fits : Literal.inRange (nextKey nodes options) = true) {k : Nat} {q : Nat × Node}
    (hq : (Sheet.ofNodes nodes options).written[k]? = some q) {m : Node}
    (hm : made[k]? = some m) :
    m.total? = none ∧ m.formula = q.2.formula.map fun f =>
      Formula.kept ⟨f.groupName, q.2.hierarchyId, Rule.grouped f.rules, f.expression⟩ := by
  have here := (mem_written h options).mp (List.mem_of_getElem? hq)
  have mem := List.mem_of_getElem? here
  obtain ⟨number, before, most, hg⟩ := getElem?_groups w hq
  obtain ⟨e, r, entry, resolved, formula, total⟩ := outcome.parts_made List.nodup_nil hm
  have entry : ((plan nodes options w project).totalled []).entries[k]? = some e := entry
  have entry : e = Assembly.groupEntry project (((Sheet.ofNodes nodes options).group w number
      ((Sheet.ofNodes nodes options).keysFrom options before) q).led, k) := by
    rw [totalled_plan h untotalled settled, filled_plan h, List.getElem?_map,
      List.getElem?_zipIdx, hg] at entry
    simpa using entry.symm
  have node : e.node = (Sheet.ofNodes nodes options).planned w project number
      ((Sheet.ofNodes nodes options).keysFrom options before) q := by
    rw [entry, Assembly.groupEntry, node_group h here]
  refine ⟨?_, ?_⟩
  · rw [total, resolved, node]
    change (Directory.resolveOption _ (if q.2.filterGroups.isEmpty then none else
      some { groups := q.2.filterGroups } : Option Filter)).value.bind (·.total) = none
    split <;> rfl
  · have planned : e.node.formula = ((Sheet.ofNodes nodes options).group w number
        ((Sheet.ofNodes nodes options).keysFrom options before) q).formula? := by
      rw [node, Sheet.planned, led_group fits w (List.mem_of_getElem? hq) number most]
    have value : r.formula = (Directory.resolveOption ((Directory.ofNodes
        ((plan nodes options w project).totalled []).nodes).resolveFormula e.node.hierarchyId)
        e.node.formula).value := by
      rw [resolved]
      rfl
    rw [formula, value, planned]
    cases hf : q.2.formula with
    | none =>
      have cells : (Sheet.ofNodes nodes options).mainFormulaCells q.2 = [] := by
        rw [Sheet.mainFormulaCells, hf, untotalled q.2 mem, childLabels_of_untotalled untotalled]
        rfl
      rw [formula?_group_none hf cells]
      rfl
    | some f =>
      have own := settled q.2 mem f hf
      have operands : ∀ r ∈ Rule.grouped f.rules,
          r.operand = "" ∨ r.operand ∈ nodes.map (·.hierarchyId) := fun r hr =>
        (own.operands r ((Rule.perm_grouped f.rules).mem_iff.mp hr)).imp id And.left
      rw [formula?_group hf (h.node q.2 mem).legible (isPlain_of_settled h own) own.label own.expression,
        Directory.resolveOption]
      dsimp only
      rw [value_resolveFormula_totalled h w project _ operands, Option.map_some, Option.map_some]

end Made

/-! ## The text of kept nodes -/

theorem extraRows_kept (n : Node) : extraRows n.kept = extraRows n := by
  have formula : n.kept.formula = n.formula.map Formula.kept := rfl
  unfold extraRows
  rw [formula]
  cases n.formula with
  | none => rfl
  | some f =>
    have groups := rulesByOperation_map Rule.operation_kept f.rules
    rw [Option.map_some]
    simp [Formula.rules_kept, groups]

theorem nextKey_kept (nodes : List Node) (options : ExportOptions) :
    nextKey (nodes.map Node.kept) options = nextKey nodes options := by
  unfold nextKey
  dsimp only
  rw [keys_kept, Sheet.furtherRows, Sheet.furtherRows, written_kept, List.map_map]
  simp only [Function.comp_def, extraRows_kept]

/-- The text of kept nodes is that of the nodes only if their formulas are kept as they are. -/
theorem kept_of_hierarchy_eq {nodes : List Node} (h : Exportable nodes) {options : ExportOptions}
    (settled : ∀ n ∈ nodes, ∀ f, n.formula = some f → f.IsSettled nodes)
    (fits : Literal.inRange (nextKey nodes options) = true)
    (same : hierarchy (nodes.map Node.kept) options = hierarchy nodes options) :
    ∀ n ∈ nodes, ∀ f, n.formula = some f → f.kept = f := by
  have fits' : Literal.inRange (nextKey (nodes.map Node.kept) options) = true := by
    rw [nextKey_kept]
    exact fits
  have keys := keysFit_of_nextKey options h.legible fits
  have keys' := keysFit_of_nextKey options h.kept.legible fits'
  -- one text is read as one list of groups
  have groups : (Sheet.ofNodes (nodes.map Node.kept) options).groups .standard options =
      (Sheet.ofNodes nodes options).groups .standard options := by
    have tables := ofText_hierarchy h.kept.legible keys'
    rw [same, ofText_hierarchy h.legible keys] at tables
    have read := group_readRows h.kept keys' .standard
    rw [← Except.ok.inj tables, group_readRows h keys] at read
    exact (congrArg Prod.fst read).symm
  intro n hn f hf
  obtain ⟨i, here⟩ := List.getElem?_of_mem hn
  obtain ⟨k, hq⟩ := List.getElem?_of_mem ((mem_written h options).mpr here)
  have hq' : (Sheet.ofNodes (nodes.map Node.kept) options).written[k]? = some (i, n.kept) := by
    rw [written_kept, List.getElem?_map, hq]
    rfl
  obtain ⟨number, before, most, hg⟩ := getElem?_groups .standard hq
  obtain ⟨number', before', most', hg'⟩ := getElem?_groups .standard hq'
  rw [groups, hg, Option.some.injEq, led_group fits _ (List.mem_of_getElem? hq) number most,
    led_group fits' _ (List.mem_of_getElem? hq') number' most'] at hg'
  have own := settled n hn f hf
  have plain := isPlain_of_settled h own
  have kept : n.kept.formula = some f.kept := by
    change n.formula.map Formula.kept = _
    rw [hf]
    rfl
  have plainKept : ∀ r ∈ f.kept.rules, r.IsPlain := by
    intro r' hr'
    obtain ⟨r, hr, rfl⟩ := List.mem_map.mp hr'
    exact ⟨(plain r hr).trimmed, (plain r hr).single, by simpa using (plain r hr).filled⟩
  have formula : ((Sheet.ofNodes nodes options).group .standard number
      ((Sheet.ofNodes nodes options).keysFrom options before) (i, n)).formula? = _ :=
    formula?_group hf (h.node n hn).legible plain own.label own.expression
  have formula' : ((Sheet.ofNodes (nodes.map Node.kept) options).group .standard number'
      ((Sheet.ofNodes (nodes.map Node.kept) options).keysFrom options before')
        (i, n.kept)).formula? = _ :=
    formula?_group kept (exportable_kept_node (h.node n hn)).legible plainKept own.label own.expression
  rw [← hg', formula, Option.some.injEq] at formula'
  have rules : Rule.grouped f.rules = Rule.grouped f.kept.rules := congrArg Formula.rules formula'
  rw [Formula.rules_kept, grouped_map Rule.operation_kept] at rules
  have kept := List.map_inj_left.mp (rules.symm.trans (List.map_id _).symm)
  have all : f.kept.rules = f.rules := (List.map_congr_left fun r hr =>
    kept r ((Rule.perm_grouped f.rules).mem_iff.mpr hr)).trans (List.map_id _)
  calc f.kept = { f with rules := f.kept.rules } := rfl
    _ = f := by rw [all]

/-! ## The second export -/

section Fixpoint

variable {nodes : List Node} (h : Exportable nodes) (options : ExportOptions)
  (apart : ∀ n ∈ nodes, ∀ p ∈ nodes, n.parentId = some p.id → n.name ≠ p.name)
  (short : ∀ n ∈ nodes, n.levelSorts.length ≤ Window.standard.last)
  (untotalled : ∀ n ∈ nodes, n.total? = none)
  (settled : ∀ n ∈ nodes, ∀ f, n.formula = some f → f.IsSettled nodes)

include h apart short untotalled settled

/-- The stored nodes are exported like the exported ones, as a store keeps them. -/
theorem hierarchy_made {options : ExportOptions} {project : String} {ids : List String}
    {made : List Node} (outcome : (plan nodes options .standard project).Outcome [] true [] ids made)
    (fits : Literal.inRange (nextKey nodes options) = true) :
    hierarchy made options = hierarchy (nodes.map Node.kept) options := by
  have totals : ∀ m ∈ made, m.total? = none := by
    intro m mem
    obtain ⟨k, hm⟩ := List.getElem?_of_mem mem
    obtain ⟨n, -, hq⟩ := written_of_made h outcome hm
    exact (formula_made h untotalled settled outcome fits hq hm).1
  have written : (Sheet.ofNodes made options).written = made.mapIdx Prod.mk := by
    refine List.ext_getElem? fun k => ?_
    rw [getElem?_written_made h outcome fits, List.getElem?_mapIdx]
  refine hierarchy_congr ((customFlags_made h outcome fits).trans (customFlags_kept nodes options).symm)
    (fun key => by rw [mem_keys_made h outcome fits, keys_kept]) ?_
  rw [written_kept, List.forall₂_map_left_iff, List.forall₂_iff_get, written]
  refine ⟨by rw [List.length_mapIdx, length_written h, length_made h outcome], fun k hk hk' => ?_⟩
  rw [List.length_mapIdx] at hk'
  have hm := List.getElem?_eq_getElem hk'
  obtain ⟨n, here, hq⟩ := written_of_made h outcome hm
  have mem := List.mem_of_getElem? here
  have position : (Sheet.ofNodes nodes options).written[k] = ((Forest.ofNodes nodes).nth k, n) :=
    (List.getElem?_eq_some_iff.mp hq).2
  have formula := (formula_made h untotalled settled outcome fits hq hm).2
  have shared := (sharedCells_made h apart outcome hm hq fits (short n mem)).trans
    (sharedCells_kept nodes options _ n).symm
  have cells : (Sheet.ofNodes made options).mainFormulaCells made[k] =
        (Sheet.ofNodes (nodes.map Node.kept) options).mainFormulaCells n.kept ∧
      ∀ key, Sheet.extraFormulaCells made[k] key = Sheet.extraFormulaCells n.kept key := by
    have own : n.kept.formula = n.formula.map Formula.kept := rfl
    cases hf : n.formula with
    | some f =>
      rw [hf, Option.map_some] at formula own
      exact formulaCells_congr own formula rfl rfl (grouped_map Rule.operation_kept f.rules).symm
    | none =>
      rw [hf, Option.map_none] at formula own
      refine ⟨?_, fun key => ?_⟩
      · rw [Sheet.mainFormulaCells, Sheet.mainFormulaCells, formula, own, Node.total?_kept,
          untotalled n mem, totals _ (List.getElem_mem hk'), childLabels_kept,
          childLabels_of_untotalled untotalled, childLabels_of_untotalled totals]
        rfl
      · rw [Sheet.extraFormulaCells, Sheet.extraFormulaCells, formula, own]
  rw [List.get_eq_getElem, List.get_eq_getElem, List.getElem_mapIdx, position]
  exact ⟨shared, cells.1, cells.2⟩

/-- Importing an export into an empty project and exporting the project writes the exported nodes as
    a store keeps them. Where a store keeps their constants, the text comes back. -/
theorem hierarchy_table (fits : Literal.inRange (nextKey nodes options) = true) {s : Store}
    {project : String} (known : s.hasProject project = true) (empty : s.nodesOf project = [])
    (ids : (s.nodes.map (·.id)).Nodup) :
    ∃ t s' summary, Table.ofText (hierarchy nodes options) = .ok t ∧
      Import.table .permissive s project .standard .standard t = .ok (s', summary) ∧
      hierarchy (s'.nodesOf project) options = hierarchy (nodes.map Node.kept) options ∧
      (hierarchy (s'.nodesOf project) options = hierarchy nodes options ↔
        ∀ n ∈ nodes, ∀ f, n.formula = some f → f.kept = f) := by
  have keys := keysFit_of_nextKey options h.legible fits
  obtain ⟨ids', made, warnings, outcome, stored, run⟩ :=
    exists_outcome h keys .standard known empty ids
  have again := hierarchy_made h apart short untotalled settled outcome fits
  refine ⟨_, _, _, ofText_hierarchy h.legible keys, run, ?_, ?_⟩
  · rw [stored, again]
  · rw [stored, again]
    exact ⟨kept_of_hierarchy_eq h settled fits, fun kept => hierarchy_kept kept options⟩

end Fixpoint

theorem hierarchy_table_twoNodes : ∃ t s' summary,
    Table.ofText (hierarchy twoNodes {}) = .ok t ∧
      Import.table .permissive { projects := [⟨"B", "B"⟩] } "B" .standard .standard t =
        .ok (s', summary) ∧
      hierarchy (s'.nodesOf "B") {} = hierarchy twoNodes {} := by
  obtain ⟨t, s', summary, read, run, -, again⟩ := hierarchy_table exportable_twoNodes {} (by decide)
    (by decide) (by decide) (by
      intro n hn f hf
      simp only [twoNodes, List.mem_cons, List.not_mem_nil, or_false] at hn
      rcases hn with rfl | rfl <;> cases hf
      exact ⟨by decide +kernel, by simp, by decide +kernel, by decide⟩)
    (by decide +kernel) (show Store.hasProject { projects := [⟨"B", "B"⟩] } "B" = true from rfl) rfl
    List.nodup_nil
  refine ⟨t, s', summary, read, run, again.mpr fun n hn f hf => ?_⟩
  simp only [twoNodes, List.mem_cons, List.not_mem_nil, or_false] at hn
  rcases hn with rfl | rfl <;> cases hf
  decide +kernel

/-- A node whose constant has sixteen digits, the last of which a store changes. -/
def oddConstant : List Node :=
  [{ id := "1", hierarchyId := "A", projectId := "A", name := "Base"
     formula := some ⟨"G", "A", [⟨.sum, "", 1, some ⟨false, 8000000000000001, 0⟩⟩], none⟩ }]

theorem exportable_oddConstant : Exportable oddConstant := by
  refine ⟨by decide, by decide, by decide, acyclic_of_rank (fun _ => 0) (by simp [oddConstant]),
    by decide, ?_⟩
  intro n hn
  obtain rfl := List.mem_singleton.mp hn
  refine ⟨by decide +kernel, by decide +kernel, by decide +kernel, by simp, by decide, by simp,
    by simp, by simp [Dict.keys], by simp [Dict.Ordered, Dict.keys], by decide, by decide, by decide,
    ?_, ?_⟩
  · rintro f ⟨⟩
    decide
  · rintro f ⟨⟩ r hr x hx
    obtain rfl := List.mem_singleton.mp hr
    cases hx
    decide +kernel

theorem hierarchy_oddConstant : Exportable oddConstant ∧
    (∀ n ∈ oddConstant, n.parentId = none ∧ n.levelSorts = [] ∧ n.total? = none) ∧
    (∀ n ∈ oddConstant, ∀ f, n.formula = some f → f.IsSettled oddConstant) ∧
    ∃ t s' summary, Table.ofText (hierarchy oddConstant {}) = .ok t ∧
      Import.table .permissive { projects := [⟨"B", "B"⟩] } "B" .standard .standard t =
        .ok (s', summary) ∧
      hierarchy (s'.nodesOf "B") {} ≠ hierarchy oddConstant {} := by
  have fits : Literal.inRange (nextKey oddConstant {}) = true := by decide +kernel
  have keys := keysFit_of_nextKey {} exportable_oddConstant.legible fits
  have settled : ∀ n ∈ oddConstant, ∀ f, n.formula = some f → f.IsSettled oddConstant := by
    intro n hn f hf
    obtain rfl := List.mem_singleton.mp hn
    cases hf
    exact ⟨by decide +kernel, by simp, by decide, by decide⟩
  obtain ⟨ids, made, warnings, outcome, stored, run⟩ := exists_outcome exportable_oddConstant keys
    .standard (show Store.hasProject { projects := [⟨"B", "B"⟩] } "B" = true from rfl) rfl List.nodup_nil
  refine ⟨exportable_oddConstant, by decide, settled, _, _, _,
    ofText_hierarchy exportable_oddConstant.legible keys, run, ?_⟩
  rw [stored, hierarchy_made exportable_oddConstant (by decide) (by decide) (by decide) settled
    outcome fits]
  intro same
  have kept := kept_of_hierarchy_eq exportable_oddConstant settled fits same _
    List.mem_cons_self _ rfl
  exact absurd kept (by decide +kernel)

end Export

end Rollup

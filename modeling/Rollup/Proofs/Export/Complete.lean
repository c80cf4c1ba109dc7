import Mathlib.Data.List.Basic
import Rollup.Proofs.Export.RowKeys
import Rollup.Proofs.Export.Traversal

/-!
# An export is complete

Every node that is no placeholder has one main row, in the order of the traversal, and directly
below it one further row for each operation of its formula but the first.

Results:

* `InOrder`: which rows an export has, and in which order.
* `inOrder_blocks`: the rows of an export, whatever the nodes are.
* `exportOrder_complete`: the traversal and the rows together.
-/

namespace Rollup.Export

/-! ## Operations -/

/-- The operations of the rules of a node, each once, in the order in which they first occur. -/
def operations (n : Node) : List Operation :=
  distinct (((n.formula.map (·.rules)).getD []).map (·.operation))

namespace Sheet

theorem map_fst_rulesByOperation (rules : List Rule) :
    (rulesByOperation rules).map (·.1) = distinct (rules.map (·.operation)) := by
  rw [rulesByOperation, buckets_eq, List.map_map, List.map_map]
  exact List.map_id _

/-- The operation of a row is that of the rules that are folded into it. -/
theorem get_operation {l : Layout} (column : Column.formulaOperation ∈ l.header)
    {front : Cells} (other : Column.formulaOperation ∉ front.map (·.1)) (operation : Operation)
    (rules : List Rule) {record : List String} (width : record.length = l.header.length) :
    l.get (l.fill (front ++ ruleCells operation rules) record) Column.formulaOperation =
      operation.keyword := by
  rcases Layout.get_fill_cases column (front ++ ruleCells operation rules) width with absent | there
  · exact absurd (by simp [ruleCells]) absent.1
  · rcases List.mem_append.mp there with there | there
    · exact absurd (List.mem_map_of_mem (f := Prod.fst) there) other
    · rcases List.mem_append.mp there with there | there
      · simp only [List.mem_cons, Prod.mk.injEq, List.not_mem_nil, or_false] at there
        rcases there with ⟨-, same⟩ | ⟨same, -⟩ | ⟨same, -⟩
        · exact same
        · exact absurd same (by decide)
        · exact absurd same (by decide)
      · split at there
        · have same := (Prod.mk.inj (List.mem_singleton.mp there)).1
          exact absurd same (by decide)
        · cases there

section Operations

variable {s : Sheet} (column : Column.formulaOperation ∈ s.layout.header) {q : Nat × Node}
  {f : Formula} (formula : q.2.formula = some f) {b : Operation × List Rule}
  {bs : List (Operation × List Rule)} (buckets : rulesByOperation f.rules = b :: bs)
  (key : Nat → Int)

include column formula buckets

/-- The main row has the first operation. -/
theorem get_main_operation :
    s.layout.get (s.block key q).main Column.formulaOperation = b.1.keyword := by
  have cells : s.mainFormulaCells q.2 = ((Column.formulaGroupName, f.groupName) ::
      (f.expression.map fun e => (Column.formulaExpression, e)).toList) ++ ruleCells b.1 b.2 := by
    rw [mainFormulaCells, formula]
    dsimp only
    rw [buckets, List.head?_cons, Option.map_some, Option.getD_some]
  rw [block, cells]
  refine get_operation column ?_ b.1 b.2 (s.length_sharedRow q.1 q.2)
  cases f.expression with
  | none => exact (by decide : Column.formulaOperation ∉ [Column.formulaGroupName])
  | some e =>
    exact (by decide :
      Column.formulaOperation ∉ [Column.formulaGroupName, Column.formulaExpression])

/-- The further rows have the other operations. -/
theorem map_further_operation :
    (s.block key q).further.map (s.layout.get · Column.formulaOperation) =
      bs.map fun b => b.1.keyword := by
  have cells : extraFormulaCells q.2 key = bs.zipIdx.map fun p =>
      [(Column.xrefKey, toString (key p.2)), (Column.formulaGroupName, f.groupName)] ++
        ruleCells p.1.1 p.1.2 := by
    rw [extraFormulaCells, formula]
    dsimp only
    rw [buckets, List.drop_one, List.tail_cons]
  have tail : (bs.map fun b => b.1.keyword) = bs.zipIdx.map fun p => p.1.1.keyword := by
    conv_lhs => rw [← List.zipIdx_map_fst 0 bs, List.map_map]
    rfl
  rw [block, cells, tail, List.map_map, List.map_map]
  refine List.map_congr_left fun p _ => ?_
  refine get_operation column ?_ p.1.1 p.1.2 (s.length_sharedRow q.1 q.2)
  exact (by decide : Column.formulaOperation ∉ [Column.xrefKey, Column.formulaGroupName])

end Operations

/-- The rows of a node with rules stand for its operations, one for each. -/
theorem map_operation_records {s : Sheet} (column : Column.formulaOperation ∈ s.layout.header)
    {q : Nat × Node} (some : operations q.2 ≠ []) (key : Nat → Int) :
    (s.block key q).records.map (s.layout.get · Column.formulaOperation) =
      (operations q.2).map Operation.keyword := by
  cases formula : q.2.formula with
  | none =>
    rw [operations, formula] at some
    exact absurd rfl some
  | some f =>
    have names : operations q.2 = (rulesByOperation f.rules).map (·.1) := by
      rw [operations, formula, map_fst_rulesByOperation, Option.map_some, Option.getD_some]
    rw [names] at some ⊢
    cases buckets : rulesByOperation f.rules with
    | nil => exact absurd (by rw [buckets, List.map_nil]) some
    | cons b bs =>
      rw [Block.records, List.map_cons, get_main_operation column formula buckets,
        map_further_operation column formula buckets, List.map_cons, List.map_cons, List.map_map]
      rfl

end Sheet

theorem extraRows_eq (n : Node) : extraRows n = (operations n).length - 1 := by
  unfold extraRows operations
  cases n.formula with
  | none => rfl
  | some f =>
    rw [Option.map_some, Option.getD_some, ← Sheet.map_fst_rulesByOperation]
    simp

/-! ## Rows -/

/-- No node that is written has a custom flag or a filter group with the name of a column. -/
def Unclaimed (nodes : List Node) (c : String) : Prop :=
  ∀ n ∈ nodes, n.isPlaceholder = false →
    c ∉ Dict.keys n.customFlags ∧ c ∉ Dict.keys n.filterGroups

instance (nodes : List Node) (c : String) : Decidable (Unclaimed nodes c) :=
  inferInstanceAs (Decidable (∀ n ∈ nodes, _))

/-- Which rows an export has. The main rows are those of the nodes that are no placeholders, in the
    order of the traversal. Directly below stands one row for each operation but the first, which
    differs from the main row in its key and in the columns of the formula only. -/
structure InOrder (nodes : List Node) (s : Sheet) (blocks : List Block) : Prop where
  positions : blocks.map (·.position) =
    (Forest.ofNodes nodes).exportOrder.filter fun i => (nodes[i]?).any (!·.isPlaceholder)
  node : ∀ b ∈ blocks, nodes[b.position]? = some b.node
  further : ∀ b ∈ blocks, b.further.length = (operations b.node).length - 1
  operation : ∀ b ∈ blocks, operations b.node ≠ [] →
    b.records.map (s.layout.get · Column.formulaOperation) =
      (operations b.node).map Operation.keyword
  shared : ∀ b ∈ blocks, ∀ r ∈ b.further, ∀ c ∈ s.layout.header, c ∉ Column.formula →
    c ≠ Column.xrefKey → s.layout.get r c = s.layout.get b.main c
  identified : Unclaimed nodes Column.hierarchyId → ∀ b ∈ blocks, ∀ r ∈ b.records,
    s.layout.get r Column.hierarchyId = b.node.hierarchyId

section Rows

variable {nodes : List Node} {options : ExportOptions}

/-- The written nodes are those that are no placeholders, in the order of the traversal. -/
theorem map_fst_written (nodes : List Node) (options : ExportOptions) :
    (Sheet.ofNodes nodes options).written.map (·.1) =
      (Forest.ofNodes nodes).exportOrder.filter fun i => (nodes[i]?).any (!·.isPlaceholder) := by
  have shown : (fun i : Nat => !((nodes[i]?).map (·.isPlaceholder)).getD true) =
      fun i => (nodes[i]?).any (!·.isPlaceholder) := by
    funext i
    cases nodes[i]? <;> simp
  have exported : (Sheet.ofNodes nodes options).exported =
      (Forest.ofNodes nodes).exportOrder.filter fun i => (nodes[i]?).any (!·.isPlaceholder) :=
    congrArg (fun p => (Forest.ofNodes nodes).exportOrder.filter p) shown
  rw [← exported, Sheet.written, Sheet.exportedNodes, List.map_filterMap]
  conv_rhs => rw [← List.filterMap_some (l := (Sheet.ofNodes nodes options).exported)]
  refine List.filterMap_congr fun i hi => ?_
  rw [exported, List.mem_filter] at hi
  obtain ⟨n, here⟩ : ∃ n, nodes[i]? = some n := by
    cases here : nodes[i]? with
    | none => rw [here] at hi; cases hi.2
    | some n => exact ⟨n, rfl⟩
  rw [forest_ofNodes, Forest.ofNodes, here]
  rfl

/-- Unless a flag or a filter group takes its place, the hierarchy id of a node is shared by all
    its rows. -/
theorem get_sharedRow_hierarchyId (free : Unclaimed nodes Column.hierarchyId) {i : Nat} {n : Node}
    (mem : (i, n) ∈ (Sheet.ofNodes nodes options).written) :
    (Sheet.ofNodes nodes options).layout.get ((Sheet.ofNodes nodes options).sharedRow i n)
      Column.hierarchyId = n.hierarchyId := by
  have cell : (Column.hierarchyId, n.hierarchyId) ∈
      (Sheet.ofNodes nodes options).placeCells i n := by
    simp [Sheet.placeCells, Sheet.idCells]
  rw [get_sharedRow_place mem free (by simp [Column.place]), Sheet.lookup_placeCells.mpr cell,
    Option.getD_some]

/-- The rows of an export, whatever the nodes are. -/
theorem inOrder_blocks (nodes : List Node) (options : ExportOptions) :
    InOrder nodes (Sheet.ofNodes nodes options)
      ((Sheet.ofNodes nodes options).blocks options) := by
  constructor
  · rw [← map_fst_written nodes options, Sheet.blocks, Sheet.map_blocksFrom _ (·.1) fun _ _ => rfl]
  · intro b hb
    obtain ⟨i, n, key, mem, rfl⟩ := mem_blocks options hb
    exact getElem?_of_written mem
  · intro b hb
    obtain ⟨i, n, key, -, rfl⟩ := mem_blocks options hb
    rw [Sheet.block, List.length_map, length_extraFormulaCells, extraRows_eq]
  · intro b hb some
    obtain ⟨i, n, key, -, rfl⟩ := mem_blocks options hb
    exact Sheet.map_operation_records
      (fixed_mem_header options (by simp [Column.fixed, Column.formula])) some key
  · intro b hb r hr c _ plain noKey
    obtain ⟨i, n, key, -, rfl⟩ := mem_blocks options hb
    rw [get_record (List.mem_cons_of_mem _ hr) plain noKey,
      get_record List.mem_cons_self plain noKey]
  · intro free b hb r hr
    obtain ⟨i, n, key, mem, rfl⟩ := mem_blocks options hb
    have place : Column.hierarchyId ∈ Column.place := by simp [Column.place]
    obtain ⟨noKey, plain, -⟩ := (Column.disjoint_columns Column.hierarchyId).1 place
    rw [get_record hr plain noKey]
    exact get_sharedRow_hierarchyId free mem

end Rows

/-! ## The traversal and its rows -/

/-- An export visits every node of any list once, without being cut short by the bound on its
    steps, and writes the rows of the nodes that are no placeholders in that order. Unless parent
    links form a cycle of two or more nodes, the order is the recursive preorder. -/
theorem exportOrder_complete (nodes : List Node) (options : ExportOptions) :
    let f := Forest.ofNodes nodes
    let s := Sheet.ofNodes nodes options
    (∀ extra, f.walk (2 * nodes.length + extra) (f.roots ++ List.range nodes.length) [] =
      f.exportOrder) ∧
    f.exportOrder.Perm (List.range nodes.length) ∧
    (∃ blocks, Export.hierarchy nodes options = s.layout.write (blocks.flatMap Block.records) ∧
      InOrder nodes s blocks) ∧
    (f.OnlySelfParents → ∃ roots children tree, f.IsPreorder f.exportOrder roots children tree) := by
  have whole := Forest.length_parents_ofNodes nodes
  refine ⟨Forest.walk_exportOrder whole, Forest.perm_exportOrder whole, ?_, fun only => ?_⟩
  · refine ⟨_, ?_, inOrder_blocks nodes options⟩
    rw [Sheet.flatMap_blocks]
    rfl
  · refine ⟨_, _, _, Forest.isPreorder_exportOrder whole (fun {i p} link => ?_) only⟩
    obtain ⟨-, m, -, there, -⟩ := Forest.link_ofNodes link
    exact (List.getElem?_eq_some_iff.mp there).1

/-- A node that is its own parent, one whose parent is missing and that comes first by its sort
    order, and a child of the first. -/
def selfParent : List Node :=
  [{ id := "1", hierarchyId := "NET", projectId := "A", name := "Net", parentId := some "1"
     isRoot := false, sortOrder := 2 },
   { id := "2", hierarchyId := "TAX", projectId := "A", name := "Tax", parentId := some "9"
     isRoot := false, sortOrder := 1 },
   { id := "3", hierarchyId := "GROSS", projectId := "A", name := "Gross", parentId := some "1"
     isRoot := false }]

theorem exportOrder_complete_selfParent :
    (Forest.ofNodes selfParent).OnlySelfParents ∧
      ∃ roots children tree,
        (Forest.ofNodes selfParent).IsPreorder [1, 0, 2] roots children tree := by
  have lowers : ∀ i < 3, ((Forest.ofNodes selfParent).parent? i).all
      (fun p => p = i ∨ p < i) = true := by decide +kernel
  have only : (Forest.ofNodes selfParent).OnlySelfParents := by
    refine Forest.onlySelfParents_of_rank id fun i p link => ?_
    have here := lowers i (Forest.lt_size_of_parent? (Forest.length_parents_ofNodes _) link)
    rw [link] at here
    simpa using here
  have order : (Forest.ofNodes selfParent).exportOrder = [1, 0, 2] := by decide +kernel
  refine ⟨only, ?_⟩
  rw [← order]
  exact (exportOrder_complete selfParent {}).2.2.2 only

end Rollup.Export

import Mathlib.Data.List.Basic
import Rollup.Proofs.Export.OperandCells
import Rollup.Proofs.Service.Totals

/-!
# Leaf marks are true

An import of a file that does not mark leaves derives the marks from the links of its nodes, before
they are stored. Storing them changes no link, and no node that was stored before is below a new one.
So the marks are true of the store that the import leaves. Later imports may put children below a
node that is marked as a leaf. An export writes a node as a leaf only if no node of the list names it
as its parent, also if all its children are placeholders and have no rows.

Results:

* `leafMarked_hierarchy`: the leaf marks of an export.
* `Added.leaf_iff`: the leaf mark of a new node.
* `leaf_importTable`: the leaf marks that an import leaves.
* `leafMarks_true`: the leaf marks of imports and of exports.
-/

namespace Rollup

open Relation

/-! ## Exports -/

namespace Export

/-- The leaf marks in the rows of an export. There is one column for them, all nodes but placeholders
    have rows, and these mark the node as a leaf if it is stored as one and has no children. -/
structure LeafMarked (nodes : List Node) (l : Layout) (blocks : List Block) : Prop where
  column : l.header.count Column.isLeafNode = 1
  written : (blocks.map (·.node)).Perm (nodes.filter fun n => !n.isPlaceholder)
  marks : ∀ b ∈ blocks, ∀ r ∈ b.records, l.get r Column.isLeafNode = "TRUE" ↔
    b.node.flags.leaf = true ∧ ∀ m ∈ nodes, m.parentId ≠ some b.node.id

/-- The leaf mark in the rows of a node. -/
theorem get_record_leaf {nodes : List Node} (free : ColumnFree nodes Column.isLeafNode)
    {options : ExportOptions} {i : Nat} {n : Node}
    (mem : (i, n) ∈ (Sheet.ofNodes nodes options).written) (key : Nat → Int) {record : List String}
    (row : record ∈ ((Sheet.ofNodes nodes options).block key (i, n)).records) :
    (Sheet.ofNodes nodes options).layout.get record Column.isLeafNode =
      Literal.boolText (n.flags.leaf && !((Forest.ofNodes nodes).children i).any (· ≠ i)) := by
  have cell : (Column.isLeafNode,
      Literal.boolText (n.flags.leaf && !((Forest.ofNodes nodes).children i).any (· ≠ i))) ∈
        (Sheet.ofNodes nodes options).placeCells i n := by
    refine List.mem_append_right _ ?_
    simp [Sheet.flagCells, forest_ofNodes]
  rw [get_record_place free mem key (by decide) row, Sheet.lookup_placeCells.mpr cell,
    Option.getD_some]

/-- The leaf marks of an export of nodes with distinct storage ids, none of which is its own
    ancestor, unless a custom flag or a filter group takes the place of the marks. -/
theorem leafMarked_hierarchy {nodes : List Node} (options : ExportOptions)
    (ids : (nodes.map (·.id)).Nodup) (acyclic : ∀ id, ¬ TransGen (IsParent nodes) id id)
    (free : ColumnFree nodes Column.isLeafNode) :
    ∃ blocks, hierarchy nodes options =
        (Sheet.ofNodes nodes options).layout.write (blocks.flatMap Block.records) ∧
      LeafMarked nodes (Sheet.ofNodes nodes options).layout blocks := by
  have apart : ∀ i, (Forest.ofNodes nodes).parent? i ≠ some i := by
    intro i own
    obtain ⟨n, m, hn, hm, link⟩ := Forest.link_ofNodes own
    obtain rfl := Option.some.inj (hn.symm.trans hm)
    exact acyclic n.id (.single ⟨n, List.mem_of_getElem? hn, rfl, link⟩)
  refine ⟨(Sheet.ofNodes nodes options).blocks options, ?_, count_fixed free options (by decide),
    ?_, ?_⟩
  · rw [Sheet.flatMap_blocks]
    rfl
  · rw [Sheet.blocks, Sheet.map_blocksFrom _ (·.2) fun _ _ => rfl]
    exact perm_written nodes options
  · intro b hb r hr
    obtain ⟨i, n, key, mem, rfl⟩ := mem_blocks options hb
    have marked : ∀ b : Bool, Literal.boolText b = "TRUE" ↔ b = true := by decide
    rw [get_record_leaf free mem key hr, marked,
      Forest.any_children ids (getElem?_of_written mem) (apart i), Bool.and_eq_true,
      Bool.not_eq_true', List.any_eq_false]
    simp only [beq_iff_eq]
    rfl

end Export

/-! ## Imports -/

namespace Service

open Import

section Added

variable {s : Store} (wf : s.WellFormed) {project : String} {table : Table} {d : Dialect}
  {added : List Placeholder} {ids : List String} {made : List Node}
  (new : Added s project table d added ids made)

include new

include wf in
theorem Added.nodup_ids : ((s.nodesOf project ++ made).map (·.id)).Nodup := by
  rw [List.map_append, List.nodup_append']
  refine ⟨wf.ids.sublist (List.filter_sublist.map _), new.addable.ids, ?_⟩
  intro id old fresh
  obtain ⟨n, hn, rfl⟩ := List.mem_map.mp old
  obtain ⟨m, hm, same⟩ := List.mem_map.mp fresh
  exact (new.addable.fresh m hm).2 (same ▸ List.mem_map_of_mem (Store.mem_nodesOf.mp hn).1)

/-- Where the file does not mark leaves, a new node is marked as one if no new node is linked to
    it. -/
theorem Added.leaf_iff_links (unmarked : table.hasColumn Column.isLeafNode = false) {k : Nat}
    {m : Node} (hm : made[k]? = some m) :
    m.flags.leaf = true ↔ ∀ j < made.length,
      (importPlan s project d table).links (s.nodesOf project) (j + (s.nodesOf project).length) ≠
        some (k + (s.nodesOf project).length) := by
  obtain ⟨e, id, -, -, eq⟩ := new.outcome.made_at hm
  have leaf : m.flags.leaf = (importPlan s project d table).leafMark (s.nodesOf project)
      (table.hasColumn Column.isLeafNode) (k + (s.nodesOf project).length) e.node.flags.leaf :=
    congrArg (fun o : Node => o.flags.leaf) eq
  rw [leaf, unmarked, ImportPlan.leafMark, if_neg Bool.false_ne_true,
    ImportPlan.newPositions_filled new.outcome.drafted, ← new.outcome.length_made,
    Bool.not_eq_true', ← Bool.not_eq_true, List.contains_iff_mem, List.mem_filterMap]
  constructor
  · intro none j hj link
    exact none ⟨j + (s.nodesOf project).length, by rw [List.mem_range'_1]; omega, link⟩
  · rintro none ⟨i, hi, link⟩
    rw [List.mem_range'_1] at hi
    obtain ⟨j, rfl⟩ := Nat.exists_eq_add_of_le' hi.1
    exact none j (by omega) link

include wf in
/-- Where the file does not mark leaves, a new node is marked as one if no node is below it. -/
theorem Added.leaf_iff (unmarked : table.hasColumn Column.isLeafNode = false) {m : Node}
    (hm : m ∈ made) :
    m.flags.leaf = true ↔ ∀ c ∈ s.nodesOf project ++ made, c.parentId ≠ some m.id := by
  obtain ⟨k, here⟩ := List.getElem?_of_mem hm
  have there : (s.nodesOf project ++ made)[k + (s.nodesOf project).length]? = some m := by
    rw [List.getElem?_append_right (Nat.le_add_left _ _), Nat.add_sub_cancel, here]
  rw [new.leaf_iff_links unmarked here]
  constructor
  · intro none c hc link
    rcases List.mem_append.mp hc with old | fresh
    · obtain ⟨stored, -⟩ := Store.mem_nodesOf.mp old
      obtain ⟨p, hp, same, -⟩ := wf.parents c stored m.id link
      exact (new.addable.fresh m hm).2 (same ▸ List.mem_map_of_mem hp)
    · obtain ⟨j, hj⟩ := List.getElem?_of_mem fresh
      have parent := new.parentId_made hj
      rw [link, eq_comm, Option.bind_eq_some_iff] at parent
      obtain ⟨q, linked, found⟩ := parent
      obtain ⟨p, hp, same⟩ := Option.map_eq_some_iff.mp found
      obtain rfl := index_of_nodup_map (new.nodup_ids wf) hp there same
      exact none j (List.getElem?_eq_some_iff.mp hj).1 linked
  · intro none j hj linked
    have child := List.getElem?_eq_getElem hj
    refine none made[j] (List.mem_append_right _ (List.getElem_mem hj)) ?_
    rw [new.parentId_made child, linked, Option.bind_some, there, Option.map_some]

end Added

/-- Right after an import of a table that does not mark leaves, the new nodes are marked as leaves
    if no stored node of the project is below them. -/
theorem leaf_importTable {s t : Store} (wf : s.WellFormed) {project : String} {table : Table}
    {dialect : Option Dialect} {report : ImportReport}
    (done : importTable s project table dialect = .ok (t, report))
    (unmarked : table.hasColumn Column.isLeafNode = false) {n : Node} (mem : n ∈ t.nodes)
    (created : n.id ∉ s.nodes.map (·.id)) :
    n.flags.leaf = true ↔ ∀ c ∈ t.nodesOf project, c.parentId ≠ some n.id := by
  obtain ⟨added, ids, made, new, rfl, -⟩ := importTable_outcome wf done
  have after := new.nodesOf_after project
  rw [if_pos rfl] at after
  have id : ∀ x, (afterImport s project made x).id = x.id := fun x =>
    congrArg Node.Place.id (place_afterImport x)
  have parent : ∀ x, (afterImport s project made x).parentId = x.parentId := fun x =>
    congrArg Node.Place.parentId (place_afterImport x)
  obtain ⟨m, hm, rfl⟩ := List.mem_map.mp mem
  rw [id] at created
  have fresh : m ∈ made := (List.mem_append.mp hm).resolve_left fun old =>
    created (List.mem_map_of_mem old)
  obtain ⟨f, same⟩ := new.afterImport_made fresh
  have leaf : (afterImport s project made m).flags = m.flags := by rw [same]
  rw [after, leaf, id, new.leaf_iff wf unmarked fresh, List.forall_mem_map]
  simp only [parent]

/-- Leaf marks are true. Right after an import of a table that does not mark leaves, the new nodes are
    marked as leaves if no stored node of the project is below them. In an export of nodes with
    distinct storage ids, none of which is its own ancestor, the rows mark a node as a leaf if it is
    stored as one and no node of the list is below it, unless a custom flag or a filter group has the
    name of the column of leaf marks. -/
theorem leafMarks_true :
    (∀ s t project table dialect report, Reachable s →
      importTable s project table dialect = .ok (t, report) →
      table.hasColumn Column.isLeafNode = false →
      ∀ n ∈ t.nodes, n.id ∉ s.nodes.map (·.id) →
        (n.flags.leaf = true ↔ ∀ c ∈ t.nodesOf project, c.parentId ≠ some n.id)) ∧
    ∀ nodes options, (nodes.map Node.id).Nodup →
      (∀ id, ¬ TransGen (Export.IsParent nodes) id id) →
      Export.ColumnFree nodes Column.isLeafNode →
      ∃ blocks, Export.hierarchy nodes options =
          (Export.Sheet.ofNodes nodes options).layout.write (blocks.flatMap Export.Block.records) ∧
        Export.LeafMarked nodes (Export.Sheet.ofNodes nodes options).layout blocks := by
  refine ⟨fun s t project table dialect report h done unmarked n mem created => ?_,
    fun nodes options ids acyclic free => ?_⟩
  · exact leaf_importTable (wellFormed_of_reachable h) done unmarked mem created
  · exact Export.leafMarked_hierarchy options ids acyclic free

/-- A table with a parent and a child. -/
def branch : Table :=
  { headers := ["HIERARCHY_ID", "HIERARCHY_NAME", "PARENT_ID"]
    columns := ["HIERARCHY_ID", "HIERARCHY_NAME", "PARENT_ID"]
    rows := [⟨1, ["A", "Alpha", ""]⟩, ⟨2, ["B", "Beta", "A"]⟩]
    problems := [] }

/-- A table with two generations below that child. -/
def twig : Table :=
  { branch with rows := [⟨1, ["C", "Gamma", "B"]⟩, ⟨2, ["D", "Delta", "C"]⟩] }

theorem leafMarks_true_twig : ∃ s t report, Reachable s ∧
    importTable s "P" twig (some .standard) = .ok (t, report) ∧
    twig.hasColumn Column.isLeafNode = false ∧
    (t.nodesOf "P").map (fun n => (n.hierarchyId, n.flags.leaf)) =
      [("A", false), ("B", true), ("C", false), ("D", true)] ∧
    (∀ n ∈ t.nodes, n.id ∉ s.nodes.map (·.id) →
      (n.flags.leaf = true ↔ ∀ c ∈ t.nodesOf "P", c.parentId ≠ some n.id)) ∧
    ∃ l blocks, Export.LeafMarked (t.nodesOf "P") l blocks ∧
      Export.hierarchy (t.nodesOf "P") {} = l.write (blocks.flatMap Export.Block.records) ∧
      ∃ b ∈ blocks, b.node.flags.leaf = true ∧ ∀ r ∈ b.records, l.get r Column.isLeafNode ≠ "TRUE" := by
  have shown : (([.initProject "P" "", .importTable "P" branch (some .standard)].foldlM run
      {}).toOption.bind fun s =>
        (run s (.importTable "P" twig (some .standard))).toOption.map fun t => ((),
          (t.nodesOf "P").map fun n => (n.hierarchyId, n.flags.leaf),
          decide (Export.ColumnFree (t.nodesOf "P") Column.isLeafNode),
          (t.nodesOf "P").any fun n => !n.isPlaceholder && n.flags.leaf &&
            (t.nodesOf "P").any (·.parentId == some n.id))) =
      some ((), [("A", false), ("B", true), ("C", false), ("D", true)], true, true) := by
    decide +kernel
  obtain ⟨s, _, reachable, ran, -, shown⟩ := exists_reachable_run shown
  obtain ⟨⟨t, report⟩, done, rfl⟩ := map_eq_ok ran
  simp only [Prod.mk.injEq, decide_eq_true_eq] at shown
  obtain ⟨nodes, free, overgrown⟩ := shown
  have wf := wellFormed_importTable (wellFormed_of_reachable reachable) done
  have ids : ((t.nodesOf "P").map Node.id).Nodup := wf.ids.sublist (List.filter_sublist.map _)
  have acyclic : ∀ id, ¬ TransGen (Export.IsParent (t.nodesOf "P")) id id := fun id cycle =>
    wf.acyclic id (TransGen.mono (fun a b ⟨n, hn, same, link⟩ =>
      ⟨n, (Store.mem_nodesOf.mp hn).1, same, link⟩) id id cycle)
  obtain ⟨imports, exports⟩ := leafMarks_true
  obtain ⟨blocks, written, marked⟩ := exports (t.nodesOf "P") {} ids acyclic free
  refine ⟨s, t, report, reachable, done, by decide, nodes,
    imports s t "P" twig (some .standard) report reachable done (by decide), _, blocks, marked,
    written, ?_⟩
  -- the first child is stored as a leaf, but has a child by now
  obtain ⟨n, hn, leaf⟩ := List.any_eq_true.mp overgrown
  rw [Bool.and_eq_true, Bool.and_eq_true] at leaf
  obtain ⟨⟨described, leaf⟩, parent⟩ := leaf
  obtain ⟨c, hc, link⟩ := List.any_eq_true.mp parent
  obtain ⟨b, hb, rfl⟩ := List.mem_map.mp
    (marked.written.mem_iff.mpr (List.mem_filter.mpr ⟨hn, described⟩))
  exact ⟨b, hb, leaf, fun r hr mark =>
    ((marked.marks b hb r hr).mp mark).2 c hc (beq_iff_eq.mp link)⟩

/-- A leaf by its filter group, although the other node is below it. -/
def groupNamedLeaf : List Node :=
  [{ id := "1", hierarchyId := "A", projectId := "P", name := "Alpha"
     filter := some { groups := [("IS_LEAF_NODE", "TRUE")] } },
   { id := "2", hierarchyId := "B", projectId := "P", name := "Beta", parentId := some "1"
     isRoot := false }]

/-- A filter group that is named like the column of leaf marks takes its place: the row marks the node
    as a leaf, whatever is below it. -/
theorem leafMark_groupNamedLeaf :
    let s := Export.Sheet.ofNodes groupNamedLeaf {}
    (groupNamedLeaf.map (·.id)).Nodup ∧
    (∀ id, ¬ TransGen (Export.IsParent groupNamedLeaf) id id) ∧
    groupNamedLeaf.map (fun n => (n.hierarchyId, n.id, n.parentId)) =
      [("A", "1", none), ("B", "2", some "1")] ∧
    (s.records {}).map (fun r =>
      (s.layout.get r Column.hierarchyId, s.layout.get r Column.isLeafNode)) =
        [("A", "TRUE"), ("B", "FALSE")] := by
  refine ⟨by decide, ?_, by decide, by decide +kernel⟩
  refine Export.acyclic_of_rank (fun id => if id = "1" then 0 else 1) ?_
  decide +kernel

end Service

end Rollup

import Mathlib.Algebra.BigOperators.Group.List.Basic
import Mathlib.Data.List.Basic
import Mathlib.Data.List.Nodup
import Mathlib.Tactic.MkIffOfInductiveProp
import Rollup.Proofs.Export.Kept
import Rollup.Proofs.Export.Read
import Rollup.Proofs.MappingImport.Outcome
import Rollup.Service

/-!
# Exporting mappings and importing them again

Every record of a mapping file is read as the mapping it was written for, and the records of a node
stand in ascending order. So importing the file fills nodes without mappings with the exported ones,
and on the nodes that it came from it finds every row held already.

Results:

* `mappingRow_written`: the row that a record is read as.
* `mappingsFor_mappingRows`: the mappings that the file puts on a node.
* `mappings_congr`: what the file depends on.
* `importMappings_mappings`: importing the file into a copy, and into the project it came from.
-/

namespace Rollup

/-! ## Nodes whose mappings can be exported -/

theorem filterMap_getElem?_range {α : Type} (xs : List α) :
    ((List.range xs.length).filterMap fun i => xs[i]?) = xs := by
  have each : ((List.range xs.length).map fun i => xs[i]?) = xs.map some := by
    apply List.ext_getElem
    · simp
    · intro i h _
      simp
  calc ((List.range xs.length).filterMap fun i => xs[i]?)
      = ((List.range xs.length).map fun i => xs[i]?).filterMap id := by
        rw [List.filterMap_map]
        rfl
    _ = xs := by
        rw [each, List.filterMap_map]
        exact List.filterMap_some

/-- A text that stands for itself in a cell: empty, or kept as it is. -/
def Literal.Settled (s : String) : Prop :=
  s = "" ∨ Plain s

instance (s : String) : Decidable (Literal.Settled s) :=
  inferInstanceAs (Decidable (_ ∨ _))

theorem Literal.getD_text? {s : String} (h : Settled s) : (text? s).getD "" = s := by
  rcases h with rfl | plain
  · rfl
  · rw [plain, Option.getD_some]

theorem Literal.text?_getD {o : Option String} (h : ∀ v ∈ o, Plain v) :
    text? (o.getD "") = o := by
  cases o with
  | none => rfl
  | some v => exact h v rfl

/-- A mapping with its texts in the form in which rows leave them, and an index of 64 bits. -/
@[mk_iff]
structure SourceMapping.Exportable (m : SourceMapping) : Prop where
  index : Literal.inRange m.index = true
  database : Literal.Settled m.database
  schema : Literal.Settled m.schema
  table : Literal.Settled m.table
  column : Literal.Settled m.column
  filled : m.table ≠ "" ∨ m.column ≠ ""
  columnType : ∀ v ∈ m.columnType, Literal.Plain v
  filterValue : ∀ v ∈ m.filterValue, Literal.Plain v
  precedenceGroup : ∀ v ∈ m.precedenceGroup, Literal.Plain v

instance (m : SourceMapping) : Decidable m.Exportable :=
  decidable_of_iff' _ m.exportable_iff

namespace Export

/-- Nodes whose mappings can be exported: with hierarchy ids and indexes of their own, and no
    placeholder among them. -/
@[mk_iff]
structure Mappable (nodes : List Node) : Prop where
  keys : (nodes.map (·.hierarchyId)).Nodup
  named : ∀ n ∈ nodes, Literal.Plain n.hierarchyId
  described : ∀ n ∈ nodes, n.isPlaceholder = false
  indexes : ∀ n ∈ nodes, (n.mappings.map (·.index)).Nodup
  mapping : ∀ n ∈ nodes, ∀ m ∈ n.mappings, m.Exportable

instance (nodes : List Node) : Decidable (Mappable nodes) :=
  decidable_of_iff' _ (mappable_iff nodes)

/-! ## Reading a record -/

/-- The layout of mapping files. -/
def mappingLayout : Layout := ⟨Column.mapping⟩

theorem nodup_mappingLayout : mappingLayout.header.Nodup := by decide

/-- A record is read as the mapping that it was written for. -/
theorem mappingRow_written (records : List (List String)) {row : Row} {n : Node}
    {m : SourceMapping} (cells : row.cells = mappingRecord n m)
    (named : Literal.Plain n.hierarchyId) (h : m.Exportable) :
    (Table.written mappingLayout records).mappingRow row =
      .ok ⟨row.number, some n.hierarchyId, some m.index, m⟩ := by
  have cell : ∀ {i : Nat} {column value : String}, mappingLayout.header[i]? = some column →
      (mappingRecord n m)[i]? = some value → mappingLayout.get row.cells column = value := by
    intro i column value there here
    rw [cells]
    exact Layout.get_of_getElem? nodup_mappingLayout there here
  have text : ∀ {i : Nat} {column value : String}, mappingLayout.header[i]? = some column →
      (mappingRecord n m)[i]? = some value →
      (Table.written mappingLayout records).text? row column = Literal.text? value := by
    intro i column value there here
    rw [Table.text?_written nodup_mappingLayout, cell there here]
  have bool : ∀ {i : Nat} {column : String} {b : Bool}, mappingLayout.header[i]? = some column →
      (mappingRecord n m)[i]? = some (Literal.boolText b) →
      (Table.written mappingLayout records).bool row column = .ok (some b) :=
    fun there here => Table.bool_written nodup_mappingLayout (cell there here)
  have index : (Table.written mappingLayout records).int row Column.mappingIndex =
      .ok (some m.index) :=
    Table.int_written nodup_mappingLayout h.index (cell (i := 1) rfl rfl)
  have someName : ((Literal.text? m.table).isNone && (Literal.text? m.column).isNone) = false := by
    rcases h.filled with filled | filled
    · rw [h.table.resolve_left filled]
      rfl
    · rw [h.column.resolve_left filled, Bool.and_comm]
      rfl
  have inline : (Table.written mappingLayout records).inlineMapping row =
      .ok (some { m with flags := {} }, some m.index) := by
    unfold Table.inlineMapping
    rw [text (i := 2) rfl rfl, text (i := 3) rfl rfl, text (i := 4) rfl rfl,
      text (i := 5) rfl rfl, text (i := 6) rfl rfl, text (i := 7) rfl rfl, text (i := 8) rfl rfl,
      index, Literal.getD_text? h.database, Literal.getD_text? h.schema,
      Literal.text?_getD h.columnType, Literal.text?_getD h.filterValue,
      Literal.text?_getD h.precedenceGroup]
    simp only [someName, Literal.getD_text? h.table, Literal.getD_text? h.column]
    rfl
  unfold Table.mappingRow
  rw [inline, text (i := 0) rfl rfl, named,
    bool (i := 9) (b := m.flags.included) rfl rfl, bool (i := 10) (b := m.flags.excluded) rfl rfl,
    bool (i := 11) (b := m.flags.transformed) rfl rfl, bool (i := 12) (b := m.flags.active) rfl rfl]
  rfl

/-! ## The rows of a file -/

/-- The nodes in the order in which their mappings are written. -/
def mappingNodes (nodes : List Node) : List Node :=
  ((Forest.ofNodes nodes).exportOrder.filterMap fun i => nodes[i]?).filter fun n => !n.isPlaceholder

/-- The mappings in the order of their rows, each with its node. -/
def mappingPairs (nodes : List Node) : List (Node × SourceMapping) :=
  (mappingNodes nodes).flatMap fun n => (MappingList.sort n.mappings).map fun m => (n, m)

/-- What the rows of a mapping file say. -/
def mappingRows (nodes : List Node) : List MappingRow :=
  ((mappingPairs nodes).zipIdx 1).map fun q =>
    ⟨q.2, some q.1.1.hierarchyId, some q.1.2.index, q.1.2⟩

/-- The table in a mapping file. -/
def mappingTable (nodes : List Node) : Table :=
  Table.written mappingLayout ((mappingPairs nodes).map fun q => mappingRecord q.1 q.2)

theorem readText_mappings (nodes : List Node) :
    Service.readText (mappings nodes) = .ok (mappingTable nodes) := by
  have records : mappings nodes =
      mappingLayout.write ((mappingPairs nodes).map fun q => mappingRecord q.1 q.2) := by
    unfold mappingPairs
    rw [List.map_flatMap]
    simp only [List.map_map]
    rfl
  have fits : ∀ r ∈ (mappingPairs nodes).map (fun q => mappingRecord q.1 q.2),
      Table.Fits mappingLayout r := by
    intro r hr
    obtain ⟨q, -, rfl⟩ := List.mem_map.mp hr
    refine ⟨rfl, Literal.boolText q.2.flags.active, by simp [mappingRecord], ?_⟩
    cases q.2.flags.active <;> decide +kernel
  have words : ∀ c ∈ mappingLayout.header, Column.isWords c = true := by decide
  have table := Table.ofText_write (l := mappingLayout) rfl (by decide)
    (fun c hc => Column.canonical_of_words (words c hc)) (by decide) fits
  rw [Service.readText, records, table]
  rfl

/-- The mappings of all nodes but placeholders are written. -/
theorem perm_mappingNodes_filter (nodes : List Node) :
    (mappingNodes nodes).Perm (nodes.filter fun n => !n.isPlaceholder) := by
  have order := Forest.perm_exportOrder (Forest.length_parents_ofNodes nodes)
  have all : ((Forest.ofNodes nodes).exportOrder.filterMap fun i => nodes[i]?).Perm nodes :=
    (order.filterMap _).trans (List.Perm.of_eq (filterMap_getElem?_range nodes))
  exact all.filter _

theorem perm_mappingNodes {nodes : List Node} (described : ∀ n ∈ nodes, n.isPlaceholder = false) :
    (mappingNodes nodes).Perm nodes := by
  have all : nodes.filter (fun n => !n.isPlaceholder) = nodes := by
    refine List.filter_eq_self.mpr fun n hn => ?_
    rw [described n hn]
    rfl
  exact (perm_mappingNodes_filter nodes).trans (List.Perm.of_eq all)

section Rows

variable {nodes : List Node} (h : Mappable nodes)

include h

theorem mem_mappingPairs {n : Node} {m : SourceMapping} :
    (n, m) ∈ mappingPairs nodes ↔ n ∈ nodes ∧ m ∈ n.mappings := by
  have order := perm_mappingNodes h.described
  simp only [mappingPairs, List.mem_flatMap, List.mem_map, Prod.mk.injEq]
  constructor
  · rintro ⟨n', hn, m', hm, rfl, rfl⟩
    exact ⟨order.mem_iff.mp hn, (MappingList.perm_sort _).mem_iff.mp hm⟩
  · rintro ⟨hn, hm⟩
    exact ⟨n, order.mem_iff.mpr hn, m, (MappingList.perm_sort _).mem_iff.mpr hm, rfl, rfl⟩

theorem length_mappingPairs :
    (mappingPairs nodes).length = (nodes.map fun n => n.mappings.length).sum := by
  have counts := (perm_mappingNodes h.described).map fun n => n.mappings.length
  rw [mappingPairs, List.length_flatMap, ← counts.sum_eq]
  simp [(MappingList.perm_sort _).length_eq]

theorem mappingRow_mappingTable :
    (mappingTable nodes).rows.map (mappingTable nodes).mappingRow =
      (mappingRows nodes).map .ok := by
  have rows : (mappingTable nodes).rows =
      ((mappingPairs nodes).zipIdx 1).map fun q => ⟨q.2, mappingRecord q.1.1 q.1.2⟩ := by
    unfold mappingTable Table.written
    dsimp only
    rw [List.zipIdx_map, List.map_map]
    rfl
  rw [rows, mappingRows, List.map_map, List.map_map]
  refine List.map_congr_left fun q hq => ?_
  obtain ⟨hn, hm⟩ := (mem_mappingPairs h).mp (List.fst_mem_of_mem_zipIdx hq)
  exact mappingRow_written _ rfl (h.named _ hn) (h.mapping _ hn _ hm)

omit h in
theorem mappingsFor_mappingRows_eq (nodes : List Node) (k : String) :
    MappingImport.mappingsFor (mappingRows nodes) k =
      (mappingNodes nodes).flatMap fun n =>
        if n.hierarchyId = k then MappingList.sort n.mappings else [] := by
  have pairs : MappingImport.mappingsFor (mappingRows nodes) k =
      ((mappingPairs nodes).filter fun q => some q.1.hierarchyId == some k).map (·.2) := by
    have numbered := List.zipIdx_map_fst 1 (mappingPairs nodes)
    rw [← numbered, List.filter_map, List.map_map, MappingImport.mappingsFor, mappingRows,
      List.filter_map, List.map_map]
    rfl
  rw [pairs, mappingPairs, List.filter_flatMap, List.map_flatMap]
  congr 1
  funext n
  by_cases same : n.hierarchyId = k
  · rw [if_pos same, List.filter_eq_self.mpr (by simp [same]), List.map_map]
    exact List.map_id _
  · rw [if_neg same, List.filter_eq_nil_iff.mpr (by simp [same])]
    rfl

/-- The mappings that the file puts on a node are its own, by index. -/
theorem mappingsFor_mappingRows {n : Node} (mem : n ∈ nodes) :
    MappingImport.mappingsFor (mappingRows nodes) n.hierarchyId = MappingList.sort n.mappings := by
  have order := perm_mappingNodes h.described
  rw [mappingsFor_mappingRows_eq]
  exact flatMap_of_key ((order.map _).nodup_iff.mpr h.keys) (order.mem_iff.mpr mem) _

theorem ascending_mappingRows (k : String) :
    (MappingImport.mappingsFor (mappingRows nodes) k).Pairwise fun a b => a.index < b.index := by
  by_cases named : ∃ n ∈ nodes, n.hierarchyId = k
  · obtain ⟨n, hn, rfl⟩ := named
    rw [mappingsFor_mappingRows h hn]
    exact MappingList.pairwise_sort (h.indexes n hn)
  · have none : MappingImport.mappingsFor (mappingRows nodes) k = [] := by
      rw [mappingsFor_mappingRows_eq, List.flatMap_eq_nil_iff]
      intro n hn
      rw [if_neg]
      intro same
      exact named ⟨n, (perm_mappingNodes h.described).mem_iff.mp hn, same⟩
    rw [none]
    exact List.Pairwise.nil

theorem mem_mappingRows {row : MappingRow} (mem : row ∈ mappingRows nodes) :
    row.mappingIndex = some row.mapping.index ∧
      ∃ n ∈ nodes, row.hierarchyId = some n.hierarchyId ∧ row.mapping ∈ n.mappings := by
  obtain ⟨q, hq, rfl⟩ := List.mem_map.mp mem
  obtain ⟨hn, hm⟩ := (mem_mappingPairs h).mp (List.fst_mem_of_mem_zipIdx hq)
  exact ⟨rfl, q.1.1, hn, rfl, hm⟩

end Rows

/-! ## What a file depends on -/

/-- What a mapping file takes from a node beyond its place in the tree. -/
structure MappingView where
  hierarchyId : String
  sortOrder : Int
  isPlaceholder : Bool
  mappings : List SourceMapping

/-- What a mapping file takes from a node beyond its place in the tree. -/
def mappingView (n : Node) : MappingView :=
  ⟨n.hierarchyId, n.sortOrder, n.isPlaceholder, MappingList.sort n.mappings⟩

theorem mappings_eq_view (nodes : List Node) :
    mappings nodes = mappingLayout.write
      ((((Forest.ofNodes nodes).exportOrder.filterMap fun i => (nodes.map mappingView)[i]?).filter
        fun v => !v.isPlaceholder).flatMap fun v => v.mappings.map
          (mappingRecord { hierarchyId := v.hierarchyId, projectId := "", name := "" })) := by
  simp only [List.getElem?_map, ← List.map_filterMap, List.filter_map, List.flatMap_map]
  rfl

/-- A mapping file depends on the tree and the views of the nodes. -/
theorem mappings_congr {nodes nodes' : List Node}
    (parents : (Forest.ofNodes nodes).parents = (Forest.ofNodes nodes').parents)
    (same : nodes.map mappingView = nodes'.map mappingView) : mappings nodes = mappings nodes' := by
  have size : nodes.length = nodes'.length := by
    simpa using congrArg List.length same
  have sort : (Forest.ofNodes nodes).sortKey = (Forest.ofNodes nodes').sortKey := by
    have key : ∀ ns : List Node, (Forest.ofNodes ns).sortKey = fun i =>
        (((ns.map mappingView)[i]?).map (·.sortOrder)).getD 0 := by
      intro ns
      funext i
      rw [List.getElem?_map, Option.map_map]
      rfl
    rw [key, key, same]
  rw [mappings_eq_view, mappings_eq_view, Forest.exportOrder_congr parents size sort, same]

/-! ## Importing a file -/

theorem importMappings_mappingTable {s : Store} {project : String} (nodes : List Node) :
    Service.importMappings s project (mappingTable nodes) =
      (MappingImport.table .permissive s project (mappingTable nodes)).mapError .ofImport := by
  have detected : (Format.detect mappingLayout.header).format = .mapping := by decide +kernel
  unfold Service.importMappings
  exact if_pos detected

theorem finish_mappingTable {nodes : List Node} (h : Mappable nodes) (s : Store)
    (project : String) :
    MappingImport.finish s project (mappingTable nodes) =
      (mappingRows nodes).foldl MappingImport.applyRow { nodes := s.nodesOf project } := by
  rw [MappingImport.finish, mappingRow_mappingTable h, List.foldl_map]
  rfl

/-- Nodes with the tree, the hierarchy ids and the sort orders of others. -/
@[mk_iff]
structure Copies (nodes copy : List Node) : Prop where
  parents : (Forest.ofNodes copy).parents = (Forest.ofNodes nodes).parents
  keys : (copy.map fun n => (n.hierarchyId, n.sortOrder)) =
    nodes.map fun n => (n.hierarchyId, n.sortOrder)
  described : ∀ n ∈ copy, n.isPlaceholder = false

instance (nodes copy : List Node) : Decidable (Copies nodes copy) :=
  decidable_of_iff' _ (copies_iff nodes copy)

section Copy

variable {nodes : List Node} (h : Mappable nodes) {s : Store} {project : String}
  (ids : (s.nodes.map (·.id)).Nodup)
  (same : ((s.nodesOf project).map (·.hierarchyId)).Perm (nodes.map (·.hierarchyId)))
  (empty : ∀ n ∈ s.nodesOf project, n.mappings = [])

include h same empty

theorem filled_mappingTable :
    MappingImport.Filled (s.nodesOf project) (mappingRows nodes)
      (MappingImport.finish s project (mappingTable nodes)) := by
  rw [finish_mappingTable h]
  refine MappingImport.filled_foldl (same.nodup_iff.mpr h.keys) empty _ ?_
    (fun row hrow => (mem_mappingRows h hrow).1) (ascending_mappingRows h)
  intro row hrow
  obtain ⟨-, n, hn, named, -⟩ := mem_mappingRows h hrow
  obtain ⟨m, hm, key⟩ := List.mem_map.mp (same.mem_iff.mpr (List.mem_map_of_mem hn))
  exact ⟨m, hm, key ▸ named⟩

include ids

theorem mappings_replacedBy {n : Node} (mem : n ∈ s.nodesOf project) :
    (n.replacedBy (MappingImport.finish s project (mappingTable nodes)).revised).mappings =
      MappingImport.mappingsFor (mappingRows nodes) n.hierarchyId := by
  rw [(filled_mappingTable h same empty).replacedBy
    (List.Nodup.sublist (List.filter_sublist.map _) ids) mem]
  split_ifs with none
  · rw [none, empty n mem]
  · rfl

/-- What a file takes from a node of the copy after the import. -/
theorem mappingView_replacedBy {n : Node} (mem : n ∈ s.nodesOf project) :
    mappingView (n.replacedBy (MappingImport.finish s project (mappingTable nodes)).revised) =
      ⟨n.hierarchyId, n.sortOrder, n.isPlaceholder,
        MappingImport.mappingsFor (mappingRows nodes) n.hierarchyId⟩ := by
  rw [mappingView, mappings_replacedBy h ids same empty mem,
    MappingList.sort_of_pairwise (ascending_mappingRows h n.hierarchyId),
    (filled_mappingTable h same empty).replacedBy
      (List.Nodup.sublist (List.filter_sublist.map _) ids) mem]
  split_ifs
  · rfl
  · rw [Node.isPlaceholder_kept]
    rfl

/-- The copy has the mapping file of its original. -/
theorem mappings_copy (copies : Copies nodes (s.nodesOf project)) :
    mappings ((s.nodesOf project).map (Node.replacedBy
      (MappingImport.finish s project (mappingTable nodes)).revised)) = mappings nodes := by
  refine mappings_congr ?_ ?_
  · rw [← copies.parents]
    refine Forest.parents_congr ?_
    rw [List.map_map]
    refine List.map_congr_left fun n hn => ?_
    have place := MappingImport.place_revised ids project (mappingTable nodes)
      (Store.mem_nodesOf.mp hn).1
    simp only [Node.place, Node.Place.mk.injEq] at place
    rw [Function.comp_apply, place.1, place.2.2.2.1]
  · -- what is left of a view is a function of the hierarchy id and the sort order
    set view : String × Int → MappingView := fun q =>
      ⟨q.1, q.2, false, MappingImport.mappingsFor (mappingRows nodes) q.1⟩ with hview
    calc ((s.nodesOf project).map _).map mappingView
        = ((s.nodesOf project).map fun n => (n.hierarchyId, n.sortOrder)).map view := by
          rw [List.map_map, List.map_map]
          refine List.map_congr_left fun n hn => ?_
          rw [Function.comp_apply, mappingView_replacedBy h ids same empty hn,
            copies.described n hn]
          rfl
      _ = (nodes.map fun n => (n.hierarchyId, n.sortOrder)).map view := by rw [copies.keys]
      _ = nodes.map mappingView := by
          rw [List.map_map]
          refine List.map_congr_left fun n hn => ?_
          rw [mappingView, h.described n hn, ← mappingsFor_mappingRows h hn]
          rfl

/-- Importing the file into a project with the hierarchy ids of its nodes and no mappings. -/
theorem importMappings_copy (known : s.hasProject project = true) :
    ∃ t, Service.importMappings s project (mappingTable nodes) =
        .ok (t, { imported := (mappingRows nodes).length }) ∧
      (t.nodesOf project).map (·.hierarchyId) = (s.nodesOf project).map (·.hierarchyId) ∧
      (∀ m ∈ t.nodesOf project, ∀ n ∈ nodes, m.hierarchyId = n.hierarchyId →
        m.mappings = MappingList.sort n.mappings) ∧
      (Copies nodes (s.nodesOf project) → mappings (t.nodesOf project) = mappings nodes) := by
  set changed := (MappingImport.finish s project (mappingTable nodes)).revised with hchanged
  have nodesOf : (s.replacing changed).nodesOf project =
      (s.nodesOf project).map (Node.replacedBy changed) :=
    MappingImport.nodesOf_replacing ids project (mappingTable nodes) project
  have key : ∀ n ∈ s.nodesOf project, (n.replacedBy changed).hierarchyId = n.hierarchyId :=
    fun n hn => MappingImport.hierarchyId_revised ids project (mappingTable nodes)
      (Store.mem_nodesOf.mp hn).1
  refine ⟨s.replacing changed, ?_, ?_, ?_, ?_⟩
  · rw [importMappings_mappingTable,
      MappingImport.table_eq known ids (same.nodup_iff.mpr h.keys),
      (filled_mappingTable h same empty).summary, Except.mapError]
  · rw [nodesOf, List.map_map]
    exact List.map_congr_left key
  · intro m hm n hn hkey
    rw [nodesOf] at hm
    obtain ⟨b, hb, rfl⟩ := List.mem_map.mp hm
    rw [key b hb] at hkey
    rw [mappings_replacedBy h ids same empty hb, hkey, mappingsFor_mappingRows h hn]
  · intro copies
    rw [nodesOf]
    exact mappings_copy h ids same empty copies

end Copy

/-- Importing the file into the project that it came from. -/
theorem importMappings_original {s : Store} {project : String}
    (h : Mappable (s.nodesOf project)) (known : s.hasProject project = true) :
    Service.importMappings s project (mappingTable (s.nodesOf project)) =
      .ok (s, { skipped := (mappingRows (s.nodesOf project)).length }) := by
  obtain ⟨nodes, held⟩ := MappingImport.foldl_applyRow_held (mappingRows (s.nodesOf project))
    { nodes := s.nodesOf project } h.keys h.indexes (by
      intro row hrow
      obtain ⟨index, n, hn, named, mem⟩ := mem_mappingRows h hrow
      exact ⟨n, hn, named, index, mem⟩)
  rw [← finish_mappingTable h] at held
  have unchanged : (MappingImport.finish s project (mappingTable (s.nodesOf project))).revised = [] := by
    rw [held]
    simp [MappingImport.Progress.revised]
  rw [importMappings_mappingTable, MappingImport.table, if_pos known]
  change Except.ok ((MappingImport.finish s project (mappingTable (s.nodesOf project))).revised.foldl
    (MappingImport.storeNode .permissive)
      (s, (MappingImport.finish s project (mappingTable (s.nodesOf project))).summary)) = _
  rw [unchanged, held, List.foldl_nil]
  simp [Summary.skip]

/-- Importing a mapping file. Into a project with the hierarchy ids of its nodes and no mappings, it
    puts on every node the mappings of the exported one, by index, and if the project is a copy of
    the exported nodes its mapping file is the same; into the project that it came from, it puts
    nothing and changes nothing. -/
theorem importMappings_mappings {nodes : List Node} (h : Mappable nodes) :
    ∃ table, Service.readText (mappings nodes) = .ok table ∧
      (∀ (s : Store) (project : String), s.hasProject project = true →
        (s.nodes.map (·.id)).Nodup →
        ((s.nodesOf project).map (·.hierarchyId)).Perm (nodes.map (·.hierarchyId)) →
        (∀ n ∈ s.nodesOf project, n.mappings = []) →
        ∃ t, Service.importMappings s project table =
            .ok (t, { imported := (nodes.map fun n => n.mappings.length).sum }) ∧
          (t.nodesOf project).map (·.hierarchyId) = (s.nodesOf project).map (·.hierarchyId) ∧
          (∀ m ∈ t.nodesOf project, ∀ n ∈ nodes, m.hierarchyId = n.hierarchyId →
            m.mappings.Perm n.mappings ∧ m.mappings.Pairwise fun a b => a.index < b.index) ∧
          (Copies nodes (s.nodesOf project) → mappings (t.nodesOf project) = mappings nodes)) ∧
      ∀ (s : Store) (project : String), s.hasProject project = true → s.nodesOf project = nodes →
        Service.importMappings s project table =
          .ok (s, { skipped := (nodes.map fun n => n.mappings.length).sum }) := by
  have count : (nodes.map fun n => n.mappings.length).sum = (mappingRows nodes).length := by
    rw [← length_mappingPairs h, mappingRows, List.length_map, List.length_zipIdx]
  refine ⟨mappingTable nodes, readText_mappings nodes, ?_, ?_⟩
  · intro s project known ids same empty
    obtain ⟨t, done, keys, restored, file⟩ := importMappings_copy h ids same empty known
    refine ⟨t, count ▸ done, keys, fun m hm n hn key => ?_, file⟩
    rw [restored m hm n hn key]
    exact ⟨MappingList.perm_sort _, MappingList.pairwise_sort (h.indexes n hn)⟩
  · rintro s project known rfl
    rw [count]
    exact importMappings_original h known

/-! ## An example -/

/-- A root with two mappings, the later index first, and a node below it with one. -/
def crossed : List Node :=
  [{ id := "1", hierarchyId := "A", projectId := "P", name := "Alpha", flags := {}
     mappings := [⟨2, "DB", "", "SALES", "AMOUNT", some "number", none, none, {}⟩,
       ⟨1, "", "", "SALES", "", none, some "N, S", none, { active := false }⟩] },
   { id := "2", hierarchyId := "B", projectId := "P", name := "Beta", parentId := some "1"
     isRoot := false, mappings := [⟨-7, "", "", "", "QTY", none, none, some "first", {}⟩] }]

/-- The same nodes without their mappings. -/
def bare : List Node :=
  crossed.map Node.unmapped

theorem importMappings_mappings_crossed :
    Mappable crossed ∧ Copies crossed bare ∧
      ∃ table, Service.readText (mappings crossed) = .ok table ∧
        (∃ t, Service.importMappings ⟨[⟨"P", "P"⟩], bare, []⟩ "P" table =
            .ok (t, { imported := 3 }) ∧ mappings (t.nodesOf "P") = mappings crossed) ∧
        Service.importMappings ⟨[⟨"P", "P"⟩], crossed, []⟩ "P" table =
          .ok (⟨[⟨"P", "P"⟩], crossed, []⟩, { skipped := 3 }) := by
  have mappable : Mappable crossed := by decide +kernel
  have copies : Copies crossed bare := by decide +kernel
  obtain ⟨table, read, copy, original⟩ := importMappings_mappings mappable
  refine ⟨mappable, copies, table, read, ?_, original _ "P" (by decide) rfl⟩
  obtain ⟨t, done, -, -, file⟩ := copy ⟨[⟨"P", "P"⟩], bare, []⟩ "P" (by decide) (by decide)
    (by decide) (by decide)
  exact ⟨t, done, file copies⟩

end Export

end Rollup

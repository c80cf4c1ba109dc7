import Mathlib.Data.List.Basic
import Mathlib.Tactic.SplitIfs
import Rollup.Proofs.Export.Mappings
import Rollup.Proofs.Service.MappingLists
import Rollup.Proofs.Service.Placeholders

/-!
# Mappings of placeholders

An ancestor that an import fills in has no mappings, and no hierarchy file puts some on it later.
But a mapping file that names it by its hierarchy id does, as on any other node. Exports leave
placeholders out, so these mappings have no rows.

Results:

* `mappings_of_marked`: a new placeholder has no mappings.
* `Effect.marked_cases`: what a call does to the mappings of marked nodes.
* `addressed_concat`: the calls that name a node.
* `placeholderMappings_of_run`: which marked nodes have mappings after some calls, and which mappings
  have rows.
* `mappings_synthSales`: a marked node with a mapping.
-/

namespace Rollup

open MappingList (Ascending putAll putRow slots)
open MappingImport (afterMappings readable rowsFor withRows)

namespace MappingList

/-- Where a row has been put, there is a mapping. -/
theorem putRow_ne_nil {ms : List SourceMapping} (h : Ascending ms) (row : MappingRow) :
    putRow ms row ≠ [] := by
  intro empty
  have held := congrFun (slots_putRow h row) (destination ms row)
  rw [empty, Function.update_self] at held
  cases held

theorem putAll_ne_nil_iff {rows : List MappingRow} {ms : List SourceMapping} (h : Ascending ms) :
    putAll rows ms ≠ [] ↔ ms ≠ [] ∨ rows ≠ [] := by
  induction rows generalizing ms with
  | nil => simp [putAll]
  | cons row rows ih =>
    have rest := ih (ascending_putRow h row)
    change putAll rows (putRow ms row) ≠ [] ↔ _
    simp [rest, putRow_ne_nil h row]

end MappingList

/-- The call imports a mapping file with a row for a hierarchy id of a project. -/
def Call.Addresses (c : Call) (project id : String) : Prop :=
  ∃ table, c = .importMappings project table ∧ rowsFor (readable table) id ≠ []

theorem addresses_importMappings {project : String} {table : Table} {project' id : String} :
    (Call.importMappings project table).Addresses project' id ↔
      project' = project ∧ rowsFor (readable table) id ≠ [] := by
  constructor
  · rintro ⟨table', eq, rows⟩
    cases eq
    exact ⟨rfl, rows⟩
  · rintro ⟨rfl, rows⟩
    exact ⟨table, rfl, rows⟩

namespace Service

/-! ## Single calls -/

theorem revision_afterMappings (project : String) (table : Table) (n : Node) :
    n.Revision (afterMappings project table n) := by
  unfold afterMappings
  split_ifs
  · exact Or.inr ⟨withRows table n, rfl, rfl⟩
  · exact Or.inl rfl

/-- A new placeholder has no mappings. -/
theorem Added.mappings_of_marked {s : Store} {project : String} {table : Table} {d : Dialect}
    {added : List Placeholder} {ids : List String} {made : List Node}
    (h : Added s project table d added ids made) {m : Node} (hm : m ∈ made) (marked : m.IsMarked) :
    m.mappings = [] := by
  have fields := h.outcome.map_eq (f := fun n => (n.stamp, n.mappings))
    (g := fun e => (⟨e.node.hierarchyId, e.node.levelPath, Value.keptFields e.node.metadata⟩,
      e.node.mappings))
    fun _ _ _ _ _ _ eq => (congrArg (fun n : Node => (n.stamp, n.mappings)) eq :)
  have mem := List.mem_map_of_mem (f := fun n : Node => (n.stamp, n.mappings)) hm
  rw [fields] at mem
  obtain ⟨e, he, eq⟩ := List.mem_map.mp mem
  obtain ⟨stamp, mappings⟩ := Prod.mk.inj eq
  rw [ImportPlan.drafts, List.mem_append, List.mem_map, List.mem_map] at he
  rcases he with ⟨q, hq, rfl⟩ | ⟨p, -, rfl⟩
  · have mem := ImportPlan.mem_groups_of_newGroups _ _ hq
    have kept := Value.keptFields_eq_self fun q' hq' => (Dialect.unmarked_group mem project q' hq').2
    have rows : m.FromRows := ⟨_, _, _, q.1, mem, stamp.symm.trans (congrArg (Node.Stamp.mk _ _) kept)⟩
    exact absurd marked (Node.not_isMarked_of_fromRows rows)
  · exact mappings.symm

/-- The hierarchy id of a new node is not stored before. -/
theorem Added.hierarchyId_ne {s : Store} {project : String} {table : Table} {d : Dialect}
    {added : List Placeholder} {ids : List String} {made : List Node}
    (h : Added s project table d added ids made) {n : Node} (hn : n ∈ made) :
    ∀ k ∈ s.nodesOf project, k.hierarchyId ≠ n.hierarchyId :=
  fun _ hk => (List.nodup_append.mp h.addable.keys).2.2 _ (List.mem_map_of_mem hk) _
    (List.mem_map_of_mem hn)

/-- After an import of mappings, a node has some if it had some or if the file names it. -/
theorem afterMappings_ne_nil_iff {project : String} {table : Table} {n : Node}
    (ascending : Ascending n.mappings) : (afterMappings project table n).mappings ≠ [] ↔
      n.mappings ≠ [] ∨
        (Call.importMappings project table).Addresses n.projectId n.hierarchyId := by
  rw [MappingImport.mappings_afterMappings ascending, addresses_importMappings]
  split_ifs with own
  · rw [and_iff_right own]
    exact MappingList.putAll_ne_nil_iff ascending
  · rw [or_iff_left fun both => own both.1]

/-- A marked node after a call was there before, and then the call has put mappings on it if it
    names it, or it is new, and then it has none. -/
theorem Effect.marked_cases {s t : Store} {c : Call} (h : Reachable s) (e : Effect s c t) {m : Node}
    (hm : m ∈ t.nodes) (marked : m.IsMarked) :
    (∃ n ∈ s.nodes, n.place = m.place ∧ n.IsMarked ∧
      (m.mappings ≠ [] ↔ n.mappings ≠ [] ∨ c.Addresses m.projectId m.hierarchyId)) ∨
    (∀ n ∈ s.nodesOf m.projectId, n.hierarchyId ≠ m.hierarchyId) ∧ m.mappings = [] := by
  have wf := wellFormed_of_reachable h
  have settled : ∀ n ∈ s.nodes, n.Settled := fun n hn => (provenance_of_reachable h n hn).1
  -- a call that is no import of a mapping file names no node
  have silent : (∀ project table, c ≠ .importMappings project table) →
      ∀ {n : Node}, n ∈ s.nodes → n.place = m.place → m.stamp = n.stamp → m.mappings = n.mappings →
      ∃ n ∈ s.nodes, n.place = m.place ∧ n.IsMarked ∧
        (m.mappings ≠ [] ↔ n.mappings ≠ [] ∨ c.Addresses m.projectId m.hierarchyId) := by
    intro other n hn place stamp mappings
    have none : ¬ c.Addresses m.projectId m.hierarchyId := by
      rintro ⟨table, rfl, -⟩
      exact other _ _ rfl
    exact ⟨n, hn, place, (Node.isMarked_congr stamp).mp marked, by rw [mappings, or_iff_left none]⟩
  cases e with
  | found | created | configured =>
    exact Or.inl (silent (fun _ _ => nofun) hm rfl rfl rfl)
  | @imported project table dialect d added ids made new =>
    obtain ⟨n, hn, rfl⟩ := List.mem_map.mp hm
    have place : (afterImport s project made n).place = n.place := place_afterImport n
    rcases List.mem_append.mp hn with old | fresh
    · exact Or.inl (silent (fun _ _ => nofun) old place.symm
        (stamp_afterImport (settled n old)) (mappings_afterImport s project made n))
    · have inProject : (afterImport s project made n).projectId = project :=
        (congrArg Node.Place.projectId place).trans (new.addable.inProject n fresh)
      have id : (afterImport s project made n).hierarchyId = n.hierarchyId :=
        congrArg Node.Place.hierarchyId place
      rw [Node.isMarked_congr (stamp_afterImport (new.settled fresh))] at marked
      refine Or.inr ⟨?_, (mappings_afterImport s project made n).trans
        (new.mappings_of_marked fresh marked)⟩
      rw [inProject, id]
      exact new.hierarchyId_ne fresh
  | @mapped project table =>
    rw [MappingImport.replacing_finish wf.ids (wf.keys _)] at hm
    obtain ⟨n, hn, rfl⟩ := List.mem_map.mp hm
    have place := MappingImport.place_afterMappings project table n
    have projectId : (afterMappings project table n).projectId = n.projectId :=
      congrArg Node.Place.projectId place
    have id : (afterMappings project table n).hierarchyId = n.hierarchyId :=
      congrArg Node.Place.hierarchyId place
    have stamp := (revision_afterMappings project table n).stamp_eq (settled n hn)
    refine Or.inl ⟨n, hn, place.symm, (Node.isMarked_congr stamp).mp marked, ?_⟩
    rw [projectId, id]
    exact afterMappings_ne_nil_iff (ascending_of_reachable h n hn)
  | resolved =>
    obtain ⟨n, hn, rfl⟩ := List.mem_map.mp hm
    exact Or.inl (silent (fun _ _ => nofun) hn (Resolution.place_rewriteIn _ n _).symm
      ((Node.revision_rewriteIn _ _ n).stamp_eq (settled n hn)) (mappings_rewriteIn _ _ n))

/-! ## Calls one after the other -/

/-- One of the calls imports a mapping file with a row for a node that is stored by then. -/
def Addressed (calls : List Call) (project id : String) : Prop :=
  ∃ before c after s, calls = before ++ c :: after ∧ before.foldlM run {} = .ok s ∧
    c.Addresses project id ∧ ∃ n ∈ s.nodesOf project, n.hierarchyId = id

section Calls

variable {calls : List Call} {s t : Store} {project id : String}

/-- The last call, and those before it. -/
theorem foldlM_concat {c : Call} (done : (calls ++ [c]).foldlM run {} = .ok t) :
    ∃ s, calls.foldlM run {} = .ok s ∧ run s c = .ok t := by
  rw [List.foldlM_append] at done
  obtain ⟨s, before, last⟩ := Except.bind_eq_ok_iff.mp done
  rw [List.foldlM_cons] at last
  obtain ⟨t', step, rest⟩ := Except.bind_eq_ok_iff.mp last
  cases rest
  exact ⟨s, before, step⟩

theorem addressed_concat (done : calls.foldlM run {} = .ok s) {c : Call} :
    Addressed (calls ++ [c]) project id ↔ Addressed calls project id ∨
      c.Addresses project id ∧ ∃ n ∈ s.nodesOf project, n.hierarchyId = id := by
  constructor
  · rintro ⟨before, c', after, s', eq, run, addresses, stored⟩
    rcases List.eq_nil_or_concat after with rfl | ⟨after, last, rfl⟩
    · obtain ⟨rfl, same⟩ := List.append_inj' eq rfl
      cases same
      rw [done] at run
      cases run
      exact Or.inr ⟨addresses, stored⟩
    · rw [List.concat_eq_append, ← List.cons_append, ← List.append_assoc] at eq
      exact Or.inl ⟨before, c', after, s', (List.append_inj' eq rfl).1, run, addresses, stored⟩
  · rintro (⟨before, c', after, s', rfl, run, addresses, stored⟩ | ⟨addresses, stored⟩)
    · exact ⟨before, c', after ++ [c], s', by simp, run, addresses, stored⟩
    · exact ⟨calls, c, [], s, rfl, done, addresses, stored⟩

/-- A node that a call names stays stored. -/
theorem stored_of_addressed (done : calls.foldlM run {} = .ok s)
    (addressed : Addressed calls project id) : ∃ n ∈ s.nodesOf project, n.hierarchyId = id := by
  induction calls using List.reverseRecOn generalizing s with
  | nil =>
    obtain ⟨before, c, after, -, eq, -⟩ := addressed
    simp at eq
  | append_singleton calls c ih =>
    obtain ⟨s', before, step⟩ := foldlM_concat done
    have stored : ∃ n ∈ s'.nodesOf project, n.hierarchyId = id :=
      ((addressed_concat before).mp addressed).elim (ih before) (·.2)
    have wf := wellFormed_of_reachable (reachable_foldlM .empty calls before)
    exact (effect_of_run wf step).exists_hierarchyId wf stored

/-- The marked nodes with mappings are those that a mapping file names. -/
theorem mappings_ne_nil_iff (done : calls.foldlM run {} = .ok s) {n : Node} (hn : n ∈ s.nodes)
    (marked : n.IsMarked) : n.mappings ≠ [] ↔ Addressed calls n.projectId n.hierarchyId := by
  induction calls using List.reverseRecOn generalizing s n with
  | nil =>
    cases done
    cases hn
  | append_singleton calls c ih =>
    obtain ⟨s', before, step⟩ := foldlM_concat done
    have reachable := reachable_foldlM .empty calls before
    have effect := effect_of_run (wellFormed_of_reachable reachable) step
    rw [addressed_concat before]
    rcases effect.marked_cases reachable hn marked with ⟨m, hm, place, old, mappings⟩ | ⟨new, none⟩
    · have projectId : m.projectId = n.projectId := congrArg Node.Place.projectId place
      have id : m.hierarchyId = n.hierarchyId := congrArg Node.Place.hierarchyId place
      have stored : ∃ k ∈ s'.nodesOf n.projectId, k.hierarchyId = n.hierarchyId :=
        ⟨m, Store.mem_nodesOf.mpr ⟨hm, projectId⟩, id⟩
      rw [mappings, ih before hm old, projectId, id, and_iff_left stored]
    · have unknown : ¬ ∃ k ∈ s'.nodesOf n.projectId, k.hierarchyId = n.hierarchyId :=
        fun ⟨k, hk, same⟩ => new k hk same
      have before : ¬ Addressed calls n.projectId n.hierarchyId :=
        fun addressed => unknown (stored_of_addressed before addressed)
      simp [none, before, unknown]

end Calls

/-- An exported mapping file has the mappings of the written nodes as they are stored. -/
theorem exportMappings_of_reachable {s : Store} (h : Reachable s) {project : String}
    (known : s.hasProject project = true) :
    exportMappings s project = .ok (Layout.write ⟨Column.mapping⟩
      ((Export.mappingNodes (s.nodesOf project)).flatMap fun n =>
        n.mappings.map (Export.mappingRecord n))) := by
  have rows : (Export.mappingNodes (s.nodesOf project)).flatMap (fun n =>
      (MappingList.sort n.mappings).map (Export.mappingRecord n)) =
      (Export.mappingNodes (s.nodesOf project)).flatMap fun n =>
        n.mappings.map (Export.mappingRecord n) := by
    refine List.flatMap_congr fun n hn => ?_
    have mem := (Export.perm_mappingNodes_filter _).mem_iff.mp hn
    have stored := (Store.mem_nodesOf.mp (List.mem_filter.mp mem).1).1
    rw [MappingList.sort_of_pairwise (ascending_of_reachable h n stored)]
  rw [exportMappings, requireProject, if_pos known, ← rows]
  rfl

/-- After some calls, a marked node has mappings iff one of the calls imported a mapping file with a
    row for the node when it was stored. A mapping file that is exported has one row for each mapping
    of a node whose hierarchy id does not start like those of placeholders, and no others; so all
    stored mappings have rows iff no other node has mappings. -/
theorem placeholderMappings_of_run (calls : List Call) (s : Store)
    (done : calls.foldlM run {} = .ok s) :
    (∀ n ∈ s.nodes, n.IsMarked →
      (n.mappings ≠ [] ↔ Addressed calls n.projectId n.hierarchyId)) ∧
    ∀ project, s.hasProject project = true → ∃ written : List Node,
      written.Perm ((s.nodesOf project).filter fun n => !n.isPlaceholder) ∧
      exportMappings s project = .ok (Layout.write ⟨Column.mapping⟩
        (written.flatMap fun n => n.mappings.map (Export.mappingRecord n))) ∧
      (∀ n ∈ s.nodesOf project, n ∈ written ↔ ¬ n.HasPlaceholderId) ∧
      ((∀ n ∈ s.nodesOf project, n.mappings ≠ [] → n ∈ written) ↔
        ∀ n ∈ s.nodesOf project, n.HasPlaceholderId → n.mappings = []) := by
  refine ⟨fun n hn marked => mappings_ne_nil_iff done hn marked, fun project known => ?_⟩
  have reachable := reachable_foldlM .empty calls done
  have perm := Export.perm_mappingNodes_filter (s.nodesOf project)
  have mem : ∀ n ∈ s.nodesOf project,
      n ∈ Export.mappingNodes (s.nodesOf project) ↔ ¬ n.HasPlaceholderId := by
    intro n hn
    have made := (provenance_of_reachable reachable n (Store.mem_nodesOf.mp hn).1).2
    rw [perm.mem_iff, List.mem_filter, ← Node.isPlaceholder_iff made]
    simp [hn]
  refine ⟨Export.mappingNodes (s.nodesOf project), perm,
    exportMappings_of_reachable reachable known, mem, ?_⟩
  refine forall₂_congr fun n hn => ?_
  rw [mem n hn]
  tauto

/-! ## An example -/

/-- A mapping file with a row for an ancestor that an import filled in. -/
def synthSource : Table :=
  { headers := ["HIERARCHY_ID", "MAPPING_INDEX", "SOURCE_DATABASE", "SOURCE_SCHEMA", "SOURCE_TABLE",
      "SOURCE_COLUMN"]
    columns := ["HIERARCHY_ID", "MAPPING_INDEX", "SOURCE_DATABASE", "SOURCE_SCHEMA", "SOURCE_TABLE",
      "SOURCE_COLUMN"]
    rows := [⟨1, ["SYNTH_SALES", "1", "DW", "GL", "FACT", "AMOUNT"]⟩]
    problems := [] }

/-- Calls that fill in two ancestors and put a mapping on one of them. -/
def synthCalls : List Call :=
  [.initProject "P" "", .importTable "P" deepRow (some .legacy), .importMappings "P" synthSource]

/-- The store after these calls: the ancestors are marked, and one of them has a mapping. -/
theorem exists_synthCalls : ∃ s north sales shop, synthCalls.foldlM run {} = .ok s ∧
    s.hasProject "P" = true ∧ s.nodesOf "P" = [shop, sales, north] ∧
    (sales.IsMarked ∧ sales.hierarchyId = "SYNTH_SALES" ∧
      sales.mappings = [⟨1, "DW", "GL", "FACT", "AMOUNT", none, none, none, {}⟩]) ∧
    (north.IsMarked ∧ north.hierarchyId = "SYNTH_SALES__NORTH" ∧ north.mappings = []) ∧
    shop.mappings = [] := by
  have shown : (synthCalls.foldlM run {}).toOption.map (fun s => (s.hasProject "P",
      (s.nodesOf "P").map fun n => ((Dict.get? Node.placeholderKey n.metadata).isSome,
        n.hierarchyId, n.mappings))) = some
      (true, [(false, "SALES__NORTH__SHOP", []),
       (true, "SYNTH_SALES", [⟨1, "DW", "GL", "FACT", "AMOUNT", none, none, none, {}⟩]),
       (true, "SYNTH_SALES__NORTH", [])]) := by
    decide +kernel
  obtain ⟨s, done, shown⟩ := Option.map_eq_some_iff.mp shown
  have done := ok_of_toOption done
  obtain ⟨known, nodes⟩ := Prod.mk.inj shown
  have marked : ∀ n ∈ s.nodesOf "P",
      (Dict.get? Node.placeholderKey n.metadata).isSome = true → n.IsMarked := by
    intro n hn key
    have made := provenance_of_reachable (reachable_foldlM .empty _ done) n (Store.mem_nodesOf.mp hn).1
    by_contra unmarked
    rw [Node.get?_of_fromRows ((Node.isMarked_iff made.2).2.mp unmarked)] at key
    cases key
  obtain ⟨shop, rest, nodes, first, shown⟩ := List.map_eq_cons_iff.mp nodes
  obtain ⟨sales, rest, rfl, second, shown⟩ := List.map_eq_cons_iff.mp shown
  obtain ⟨north, rfl, third⟩ := List.map_eq_singleton_iff.mp shown
  simp only [Prod.mk.injEq] at first second third
  rw [nodes] at marked
  exact ⟨s, north, sales, shop, done, known, nodes,
    ⟨marked sales (by simp) second.1, second.2⟩, ⟨marked north (by simp) third.1, third.2⟩,
    first.2.2⟩

/-- The mapping of a filled-in ancestor has no row in an export. -/
theorem mappings_synthSales : ∃ s, Reachable s ∧
    (∃ n ∈ s.nodesOf "P", n.IsMarked ∧
      n.mappings = [⟨1, "DW", "GL", "FACT", "AMOUNT", none, none, none, {}⟩]) ∧
    exportMappings s "P" = .ok (Layout.write ⟨Column.mapping⟩ []) := by
  obtain ⟨s, north, sales, shop, done, known, nodes, ⟨marked, id, mapped⟩, ⟨-, -, none⟩, none'⟩ :=
    exists_synthCalls
  have reachable := reachable_foldlM .empty _ done
  refine ⟨s, reachable, ⟨sales, by simp [nodes], marked, mapped⟩, ?_⟩
  have rows : (Export.mappingNodes [shop, sales, north]).flatMap (fun n =>
      n.mappings.map (Export.mappingRecord n)) = [] := by
    refine List.flatMap_eq_nil_iff.mpr fun n hn => ?_
    obtain ⟨hn, described⟩ := List.mem_filter.mp ((Export.perm_mappingNodes_filter _).mem_iff.mp hn)
    have empty : n.mappings = [] := by
      simp only [List.mem_cons, List.not_mem_nil, or_false] at hn
      rcases hn with rfl | rfl | rfl
      · exact none'
      · have counts : n.isPlaceholder = true :=
          (Bool.or_eq_true _ _).mpr (Or.inl (by rw [id]; decide))
        rw [counts] at described
        cases described
      · exact none
    rw [empty, List.map_nil]
  rw [exportMappings_of_reachable reachable known, nodes, rows]

theorem placeholderMappings_of_run_synthCalls : ∃ s, synthCalls.foldlM run {} = .ok s ∧
    Addressed synthCalls "P" "SYNTH_SALES" ∧ ¬ Addressed synthCalls "P" "SYNTH_SALES__NORTH" ∧
    ∃ written : List Node, exportMappings s "P" = .ok (Layout.write ⟨Column.mapping⟩
        (written.flatMap fun n => n.mappings.map (Export.mappingRecord n))) ∧
      ¬ ∀ n ∈ s.nodesOf "P", n.mappings ≠ [] → n ∈ written := by
  obtain ⟨s, north, sales, shop, done, known, nodes, ⟨marked, id, mapped⟩, ⟨marked', id', none⟩, -⟩ :=
    exists_synthCalls
  obtain ⟨named, exported⟩ := placeholderMappings_of_run synthCalls s done
  obtain ⟨written, -, text, -, complete⟩ := exported "P" known
  have sales_mem : sales ∈ s.nodesOf "P" := by simp [nodes]
  have north_mem : north ∈ s.nodesOf "P" := by simp [nodes]
  obtain ⟨sales_stored, sales_project⟩ := Store.mem_nodesOf.mp sales_mem
  obtain ⟨north_stored, north_project⟩ := Store.mem_nodesOf.mp north_mem
  have addressed := named sales sales_stored marked
  have unaddressed := named north north_stored marked'
  rw [sales_project, id, mapped] at addressed
  rw [north_project, id', none] at unaddressed
  refine ⟨s, done, addressed.mp (by simp), fun some => unaddressed.mpr some rfl, written, text, ?_⟩
  intro all
  have empty := complete.mp all sales sales_mem (by rw [Node.HasPlaceholderId, id]; decide)
  rw [mapped] at empty
  cases empty

end Service

end Rollup

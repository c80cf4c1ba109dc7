import Mathlib.Data.List.Forall2
import Mathlib.Tactic.SplitIfs
import Rollup.Proofs.MappingImport.Rows
import Rollup.Proofs.Service.Provenance

/-!
# The mapping lists of reachable stores

Imports make nodes with ascending mappings, mapping files keep them so, and no other call touches
them. So on every reachable store a mapping file acts on each node as a sequence of updates.

Results:

* `ascending_mergedMappings`: the mappings that a group of rows makes.
* `ascending_of_reachable`: the mappings of every node of a reachable store.
* `mappings_of_reachable`: what a mapping file does to a reachable store, once and twice.
* `constant_twoSources`: a store that a second import of the same file changes.
-/

namespace Rollup

open MappingList (Ascending Applied Contested slots)
open MappingImport (afterMappings readable rowsFor)

/-! ## Mappings of groups -/

namespace RowGroup

theorem mem_insertMapping {m n : SourceMapping} {ms : List SourceMapping}
    (mem : n ∈ insertMapping m ms) : n = m ∨ n ∈ ms := by
  induction ms with
  | nil => exact Or.inl (List.mem_singleton.mp mem)
  | cons k rest ih =>
    rw [insertMapping] at mem
    split_ifs at mem
    · exact List.mem_cons.mp mem
    · exact Or.inr mem
    · rcases List.mem_cons.mp mem with rfl | mem
      · exact Or.inr (by simp)
      · exact (ih mem).imp id (List.mem_cons_of_mem k)

theorem ascending_insertMapping (m : SourceMapping) {ms : List SourceMapping} (h : Ascending ms) :
    Ascending (insertMapping m ms) := by
  induction ms with
  | nil => exact List.pairwise_singleton _ m
  | cons k rest ih =>
    obtain ⟨low, ascending⟩ := List.pairwise_cons.mp h
    rw [insertMapping]
    split_ifs with less same
    · refine List.pairwise_cons.mpr ⟨fun n hn => ?_, h⟩
      rcases List.mem_cons.mp hn with rfl | hn
      · exact less
      · exact less.trans (low n hn)
    · exact h
    · refine List.pairwise_cons.mpr ⟨fun n hn => ?_, ih ascending⟩
      rcases mem_insertMapping hn with rfl | hn
      · omega
      · exact low n hn

/-- The mappings of a group are in ascending order. -/
theorem ascending_mergedMappings (g : RowGroup) : Ascending g.mergedMappings := by
  refine List.foldlRecOn (motive := Ascending) g.rows _ List.Pairwise.nil fun ms h row _ => ?_
  cases row.mapping with
  | none => exact h
  | some m => exact ascending_insertMapping _ h

end RowGroup

/-! ## Reachable stores -/

namespace Service

theorem Added.ascending {s : Store} {project : String} {table : Table} {d : Dialect}
    {added : List Placeholder} {ids : List String} {made : List Node}
    (h : Added s project table d added ids made) : ∀ m ∈ made, Ascending m.mappings := by
  have mappings := h.outcome.map_eq (f := Node.mappings) (g := fun e => e.node.mappings)
    fun _ _ _ _ _ _ eq => (congrArg Node.mappings eq :)
  intro m hm
  have mem := List.mem_map_of_mem (f := Node.mappings) hm
  rw [mappings, List.mem_map] at mem
  obtain ⟨e, he, eq⟩ := mem
  rw [← eq]
  rw [ImportPlan.drafts, List.mem_append, List.mem_map, List.mem_map] at he
  rcases he with ⟨q, -, rfl⟩ | ⟨p, -, rfl⟩
  · exact q.1.ascending_mergedMappings
  · exact List.Pairwise.nil

theorem mappings_rewriteIn (project : String) (d : Directory) (n : Node) :
    (Resolution.rewriteIn project d n).mappings = n.mappings := by
  unfold Resolution.rewriteIn Resolution.rewrite
  split_ifs <;> rfl

theorem mappings_afterImport (s : Store) (project : String) (made : List Node) (n : Node) :
    (afterImport s project made n).mappings = n.mappings := by
  unfold afterImport
  split_ifs
  · exact mappings_rewriteIn _ _ n
  · rfl

/-- A call leaves the mappings of all nodes in ascending order. -/
theorem Effect.ascending {s t : Store} {c : Call} (wf : s.WellFormed) (e : Effect s c t)
    (h : ∀ n ∈ s.nodes, Ascending n.mappings) : ∀ n ∈ t.nodes, Ascending n.mappings := by
  cases e with
  | found | created | configured => exact h
  | imported new =>
    intro m hm
    obtain ⟨n, hn, rfl⟩ := List.mem_map.mp hm
    rw [mappings_afterImport]
    exact (List.mem_append.mp hn).elim (h n) (new.ascending n)
  | mapped =>
    rw [MappingImport.replacing_finish wf.ids (wf.keys _)]
    intro m hm
    obtain ⟨n, hn, rfl⟩ := List.mem_map.mp hm
    exact MappingImport.ascending_afterMappings (h n hn) _ _
  | resolved =>
    intro m hm
    obtain ⟨n, hn, rfl⟩ := List.mem_map.mp hm
    rw [mappings_rewriteIn]
    exact h n hn

theorem ascending_of_reachable {s : Store} (h : Reachable s) :
    ∀ n ∈ s.nodes, Ascending n.mappings := by
  induction h with
  | empty => simp
  | call c reachable done ih =>
    have wf := wellFormed_of_reachable reachable
    exact (effect_of_run wf done).ascending wf ih

/-! ## Mapping files -/

/-- What a mapping file makes of a node. -/
structure MappedBy (table : Table) (n m : Node) : Prop where
  /-- Its rows for the node are applied in their order to the map of its mappings. -/
  applied : Applied (slots n.mappings) (rowsFor (readable table) n.hierarchyId) (slots m.mappings)
  ascending : Ascending m.mappings
  /-- Nothing but the mappings changes, except that constants are kept again. -/
  others : m = n ∨ m = { n with mappings := m.mappings, formula := n.formula.map Formula.kept }

/-- The store in which the constants of a node of the project are kept again if some of the rows for
    it are contested. -/
def rekept (project : String) (table : Table) (s : Store) : Store :=
  { s with nodes := s.nodes.map fun n =>
      if n.projectId = project ∧ Contested (rowsFor (readable table) n.hierarchyId) then
        { n with formula := n.formula.map Formula.kept }
      else n }

theorem mappedBy_afterMappings {project : String} (table : Table) {n : Node} (settled : n.Settled)
    (h : Ascending n.mappings) (own : n.projectId = project) :
    MappedBy table n (afterMappings project table n) := by
  refine ⟨?_, MappingImport.ascending_afterMappings h project table, ?_⟩
  · rw [MappingImport.mappings_afterMappings h, if_pos own]
    exact MappingList.applied_putAll _ h
  · unfold afterMappings
    split_ifs
    · have again : (MappingImport.withRows table n).Settled := ⟨settled.filter, settled.metadata⟩
      rw [Node.kept_of_settled again]
      exact Or.inr rfl
    · exact Or.inl rfl

theorem settled_afterMappings {project : String} (table : Table) {n : Node} (settled : n.Settled) :
    (afterMappings project table n).Settled := by
  unfold afterMappings
  split_ifs
  · exact Node.settled_kept settled.metadata
  · exact settled

/-- A second import of rows with indexes. -/
theorem map_afterMappings {s : Store} {project : String} {table : Table}
    (settled : ∀ n ∈ s.nodes, n.Settled) (ascending : ∀ n ∈ s.nodes, Ascending n.mappings)
    (indexed : ∀ row ∈ readable table, row.mappingIndex ≠ none) {t : Store}
    (nodes : t.nodes = s.nodes.map (afterMappings project table)) :
    ({ t with nodes := t.nodes.map (afterMappings project table) } : Store) =
      rekept project table t := by
  unfold rekept
  congr 1
  refine List.map_congr_left fun m hm => ?_
  rw [nodes] at hm
  obtain ⟨n, hn, rfl⟩ := List.mem_map.mp hm
  have place := MappingImport.place_afterMappings project table n
  have projectId : (afterMappings project table n).projectId = n.projectId :=
    congrArg Node.Place.projectId place
  have hierarchyId : (afterMappings project table n).hierarchyId = n.hierarchyId :=
    congrArg Node.Place.hierarchyId place
  rw [MappingImport.afterMappings_again (ascending n hn) project table indexed, ← projectId,
    ← hierarchyId, Node.kept_of_settled (settled_afterMappings table (settled n hn))]

theorem table_of_run {s t : Store} {project : String} {table : Table}
    (done : run s (.importMappings project table) = .ok t) :
    ∃ summary, MappingImport.table .permissive s project table = .ok (t, summary) := by
  obtain ⟨⟨t', summary⟩, eq, rfl⟩ := map_eq_ok done
  unfold importMappings at eq
  dsimp only at eq
  split_ifs at eq
  exact ⟨summary, mapError_eq_ok eq⟩

/-- The mapping lists of a reachable store are ascending. A mapping file applies its rows to them in
    their order, and importing it once more, where all its rows have an index, changes nothing but
    the constants of nodes that some of its rows contest. -/
theorem mappings_of_reachable (s : Store) (h : Reachable s) :
    (∀ n ∈ s.nodes, Ascending n.mappings) ∧
    ∀ (project : String) (table : Table), s.hasProject project = true →
      ∃ t summary, MappingImport.table .permissive s project table = .ok (t, summary) ∧
        (∀ t', run s (.importMappings project table) = .ok t' → t' = t) ∧
        List.Forall₂ (MappedBy table) (s.nodesOf project) (t.nodesOf project) ∧
        (∀ other ≠ project, t.nodesOf other = s.nodesOf other) ∧
        ((∀ row ∈ readable table, row.mappingIndex ≠ none) → ∃ summary',
          MappingImport.table .permissive t project table =
            .ok (rekept project table t, summary')) := by
  have wf := wellFormed_of_reachable h
  have ascending := ascending_of_reachable h
  have settled : ∀ n ∈ s.nodes, n.Settled := fun n hn => (provenance_of_reachable h n hn).1
  refine ⟨ascending, fun project table known => ?_⟩
  have done := MappingImport.table_eq_map known wf.ids (wf.keys project) table
  set t : Store := { s with nodes := s.nodes.map (afterMappings project table) } with ht
  have nodesOf : ∀ project', t.nodesOf project' =
      (s.nodesOf project').map (afterMappings project table) :=
    Store.nodesOf_map rfl fun n _ =>
      congrArg Node.Place.projectId (MappingImport.place_afterMappings project table n)
  refine ⟨t, _, done, fun t' called => ?_, ?_, fun other ne => ?_, fun indexed => ?_⟩
  · obtain ⟨summary, same⟩ := table_of_run called
    rw [done] at same
    cases same
    rfl
  · rw [nodesOf, List.forall₂_map_right_iff, List.forall₂_same]
    intro n hn
    obtain ⟨mem, own⟩ := Store.mem_nodesOf.mp hn
    exact mappedBy_afterMappings table (settled n mem) (ascending n mem) own
  · rw [nodesOf]
    refine (List.map_congr_left fun n hn => ?_).trans (List.map_id _)
    have elsewhere := (Store.mem_nodesOf.mp hn).2
    exact if_neg fun both => ne (elsewhere.symm.trans both.1)
  · have wf' : t.WellFormed := MappingImport.wellFormed_table wf done
    have known' : t.hasProject project = true := known
    have again := MappingImport.table_eq_map known' wf'.ids (wf'.keys project) table
    rw [map_afterMappings settled ascending indexed rfl] at again
    exact ⟨_, again⟩

/-! ## An example -/

/-- A table whose only node has a formula with a constant that is kept as another one each time. -/
def alphaTable : Table :=
  { headers := ["HIERARCHY_ID", "HIERARCHY_NAME", "FORMULA_OPERATION", "FORMULA_CONSTANT"]
    columns := ["HIERARCHY_ID", "HIERARCHY_NAME", "FORMULA_OPERATION", "FORMULA_CONSTANT"]
    rows := [⟨1, ["A", "Alpha", "SUM", "7.1e-22"]⟩]
    problems := [] }

/-- A mapping file with two rows for the same index of a node. -/
def twoSources : Table :=
  { headers := ["HIERARCHY_ID", "MAPPING_INDEX", "SOURCE_DATABASE", "SOURCE_SCHEMA", "SOURCE_TABLE",
      "SOURCE_COLUMN"]
    columns := ["HIERARCHY_ID", "MAPPING_INDEX", "SOURCE_DATABASE", "SOURCE_SCHEMA", "SOURCE_TABLE",
      "SOURCE_COLUMN"]
    rows := [⟨1, ["A", "1", "DW", "GL", "T1", "AMOUNT"]⟩, ⟨2, ["A", "1", "DW", "GL", "T2", "AMOUNT"]⟩]
    problems := [] }

/-- The constants of all rules of a project. -/
def constantsOf (s : Store) (project : String) : List (Option Binary64) :=
  (s.nodesOf project).flatMap fun n => (n.formula.toList.flatMap (·.rules)).map (·.constant)

/-- Importing a mapping file once more can change a constant, where all its rows have an index. -/
theorem constant_twoSources : (∀ row ∈ readable twoSources, row.mappingIndex ≠ none) ∧
    ∃ t u, ([.initProject "P" "", .importTable "P" alphaTable (some .standard),
        .importMappings "P" twoSources] : List Call).foldlM run {} = .ok t ∧
      run t (.importMappings "P" twoSources) = .ok u ∧
      constantsOf t "P" = [some ⟨false, 7550015016058324, -123⟩] ∧
      constantsOf u "P" = [some ⟨false, 7550015016058325, -123⟩] := by
  have shown : ((([.initProject "P" "", .importTable "P" alphaTable (some .standard),
      .importMappings "P" twoSources] : List Call).foldlM run {}).toOption.bind fun t =>
        (run t (.importMappings "P" twoSources)).toOption.map fun u =>
          (constantsOf t "P", constantsOf u "P")) = some
      ([some ⟨false, 7550015016058324, -123⟩], [some ⟨false, 7550015016058325, -123⟩]) := by
    decide +kernel
  obtain ⟨t, before, shown⟩ := Option.bind_eq_some_iff.mp shown
  obtain ⟨u, after, shown⟩ := Option.map_eq_some_iff.mp shown
  obtain ⟨once, twice⟩ := Prod.mk.inj shown
  exact ⟨by decide +kernel, t, u, ok_of_toOption before, ok_of_toOption after, once, twice⟩

theorem mappings_of_reachable_twoSources : ∃ s t, Reachable s ∧
    run s (.importMappings "P" twoSources) = .ok t ∧
    (s.nodesOf "P").map (·.mappings) = [[]] ∧
    (t.nodesOf "P").map (·.mappings) = [[⟨1, "DW", "GL", "T2", "AMOUNT", none, none, none, {}⟩]] ∧
    (∀ n ∈ s.nodes, Ascending n.mappings) ∧
    List.Forall₂ (MappedBy twoSources) (s.nodesOf "P") (t.nodesOf "P") ∧
    ∃ summary, MappingImport.table .permissive t "P" twoSources =
      .ok (rekept "P" twoSources t, summary) := by
  have shown : ((([.initProject "P" "", .importTable "P" alphaTable (some .standard)] :
      List Call).foldlM run {}).toOption.bind fun s =>
        (run s (.importMappings "P" twoSources)).toOption.map fun t =>
          ((s.hasProject "P", (s.nodesOf "P").map (·.mappings)),
            (t.nodesOf "P").map (·.mappings))) = some
      ((true, [[]]), [[⟨1, "DW", "GL", "T2", "AMOUNT", none, none, none, {}⟩]]) := by
    decide +kernel
  obtain ⟨s, t, reachable, done, before, after⟩ := exists_reachable_run shown
  obtain ⟨known, before⟩ := Prod.mk.inj before
  obtain ⟨ascending, mapped⟩ := mappings_of_reachable s reachable
  obtain ⟨t', summary, -, same, maps, -, again⟩ := mapped "P" twoSources known
  obtain rfl := same t done
  exact ⟨s, t, reachable, done, before, after, ascending, maps, again (by decide +kernel)⟩

end Service

end Rollup

import Mathlib.Data.List.Basic
import Mathlib.Tactic.SplitIfs
import Rollup.Proofs.MappingImport.Outcome
import Rollup.Proofs.MappingList.Slots

/-!
# What a mapping file does to each node

An import of mappings treats every node on its own: the rows with its hierarchy id are put on it in
the order of the file, and it is written back if one of them changed what it held.

Results:

* `applyRow_at`, `foldl_applyOutcome_at`: what rows do to one node.
* `table_eq_map`: the store after an import of mappings, node by node.
* `afterMappings_again`: what a second import of the same rows does to a node.
-/

namespace Rollup.MappingImport

open MappingList

/-! ## Rows of one node -/

/-- The rows of a mapping file that can be read. -/
def readable (t : Table) : List MappingRow :=
  (t.rows.map t.mappingRow).filterMap Except.toOption

/-- The rows with a hierarchy id. -/
def rowsFor (rows : List MappingRow) (h : String) : List MappingRow :=
  rows.filter (·.hierarchyId == some h)

section Fold

variable {p : Progress} {i : Nat} {n : Node}

/-- A row either finds no node, and then it changes none, or it puts its mapping on the node that it
    finds. -/
theorem applyRow_cases (p : Progress) (row : MappingRow) :
    ((∀ n ∈ p.nodes, row.hierarchyId ≠ some n.hierarchyId) ∧
      (applyRow p row).nodes = p.nodes ∧ (applyRow p row).changed = p.changed) ∨
    ∃ j m, p.nodes[j]? = some m ∧ row.hierarchyId = some m.hierarchyId ∧
      (applyRow p row).nodes = p.nodes.modify j (·.mapped (putRow m.mappings row)) ∧
      ∀ i, i ∈ (applyRow p row).changed ↔ i ∈ p.changed ∨
        i = j ∧ (put row.mappingIndex row.mapping m.mappings).2 ≠ .unchanged := by
  unfold applyRow
  cases row.hierarchyId with
  | none => exact Or.inl ⟨by simp, rfl, rfl⟩
  | some h =>
    dsimp only
    cases found : p.nodes.findIdx? (·.hierarchyId == h) with
    | none =>
      refine Or.inl ⟨fun n hn same => ?_, rfl, rfl⟩
      have other := List.findIdx?_eq_none_iff.mp found n hn
      simp [Option.some.inj same] at other
    | some j =>
      obtain ⟨bound, same, -⟩ := List.findIdx?_eq_some_iff_getElem.mp found
      have here : p.nodes[j]? = some p.nodes[j] := List.getElem?_eq_getElem bound
      refine Or.inr ⟨j, p.nodes[j], here, by simpa using (beq_iff_eq.mp same).symm, ?_⟩
      simp only [here, Option.map_some, Option.getD_some]
      cases change : (put row.mappingIndex row.mapping p.nodes[j].mappings).2
      case unchanged => exact ⟨rfl, fun i => by simp⟩
      all_goals
        refine ⟨rfl, fun i => ?_⟩
        dsimp only
        split_ifs with seen
        · simp only [ne_eq, reduceCtorEq, not_false_eq_true, and_true]
          exact ⟨Or.inl, fun h => h.elim id fun eq => eq ▸ seen⟩
        · simp

variable (keys : (p.nodes.map (·.hierarchyId)).Nodup) (here : p.nodes[i]? = some n)

include keys here

/-- One row puts its mapping on the node with its hierarchy id. -/
theorem applyRow_at (row : MappingRow) :
    (applyRow p row).nodes[i]? = some (n.mapped
      (if row.hierarchyId = some n.hierarchyId then putRow n.mappings row else n.mappings)) ∧
    (i ∈ (applyRow p row).changed ↔ i ∈ p.changed ∨ row.hierarchyId = some n.hierarchyId ∧
      (put row.mappingIndex row.mapping n.mappings).2 ≠ .unchanged) := by
  rcases applyRow_cases p row with ⟨lost, nodes, changed⟩ | ⟨j, m, there, named, nodes, changed⟩
  · have other := lost n (List.mem_of_getElem? here)
    rw [nodes, changed, if_neg other]
    exact ⟨here, by simp [other]⟩
  · rw [nodes, changed, List.getElem?_modify, here]
    by_cases same : j = i
    · subst same
      obtain rfl : m = n := Option.some.inj (there.symm.trans here)
      simp [named]
    · have other : row.hierarchyId ≠ some n.hierarchyId := by
        intro own
        exact same (index_of_nodup_map keys there here (Option.some.inj (named.symm.trans own)))
      rw [if_neg other]
      exact ⟨by simp [same]; rfl, by simp [other, Ne.symm same]⟩

/-- Rows put their mappings on the nodes with their hierarchy ids. -/
theorem foldl_applyOutcome_at (outcomes : List (Except ImportError MappingRow)) :
    (outcomes.foldl applyOutcome p).nodes[i]? = some (n.mapped
      (putAll (rowsFor (outcomes.filterMap Except.toOption) n.hierarchyId) n.mappings)) ∧
    (i ∈ (outcomes.foldl applyOutcome p).changed ↔ i ∈ p.changed ∨
      moves (rowsFor (outcomes.filterMap Except.toOption) n.hierarchyId) n.mappings = true) := by
  -- on the rows that are left, for the node as the rows before them made it
  induction outcomes generalizing p n with
  | nil => exact ⟨here, by simp [rowsFor, moves]⟩
  | cons o outcomes ih =>
    rw [List.foldl_cons]
    cases o with
    | error e => exact ih keys here
    | ok row =>
      obtain ⟨nodes, changed⟩ := applyRow_at keys here row
      have same : (applyRow p row).nodes.map (·.hierarchyId) = p.nodes.map (·.hierarchyId) :=
        Node.map_of_unmapped (fun _ => rfl) (unmapped_applyRow p row)
      have keys' : ((applyRow p row).nodes.map (·.hierarchyId)).Nodup := same ▸ keys
      obtain ⟨nodes', changed'⟩ := ih keys' nodes
      rw [List.filterMap_cons, Except.toOption]
      by_cases own : row.hierarchyId = some n.hierarchyId
      · have first : rowsFor (row :: outcomes.filterMap Except.toOption) n.hierarchyId =
            row :: rowsFor (outcomes.filterMap Except.toOption) n.hierarchyId :=
          List.filter_cons_of_pos (by simpa using own)
        rw [if_pos own] at nodes'
        rw [first]
        refine ⟨nodes', changed'.trans ?_⟩
        rw [if_pos own, changed, moves, Bool.or_eq_true, decide_eq_true_eq, or_assoc]
        simp [own]
      · have other : rowsFor (row :: outcomes.filterMap Except.toOption) n.hierarchyId =
            rowsFor (outcomes.filterMap Except.toOption) n.hierarchyId :=
          List.filter_cons_of_neg (by simpa using own)
        rw [if_neg own] at nodes'
        rw [other]
        refine ⟨nodes', changed'.trans ?_⟩
        rw [if_neg own, changed]
        simp [own]

end Fold

/-! ## Nodes after an import -/

/-- The node with the mappings of its rows put on it. -/
def withRows (t : Table) (n : Node) : Node :=
  n.mapped (putAll (rowsFor (readable t) n.hierarchyId) n.mappings)

/-- Some row of the node changes what it holds. -/
def movedBy (t : Table) (n : Node) : Bool :=
  moves (rowsFor (readable t) n.hierarchyId) n.mappings

/-- A node after an import of mappings into a project: it is written back if a row changed it. -/
def afterMappings (project : String) (t : Table) (n : Node) : Node :=
  if n.projectId = project ∧ movedBy t n = true then (withRows t n).kept else n

section Table

variable {s : Store} {project : String}

theorem nodes_finish (keys : ((s.nodesOf project).map (·.hierarchyId)).Nodup) (t : Table) :
    (finish s project t).nodes = (s.nodesOf project).map (withRows t) := by
  have size := congrArg List.length (unmapped_finish s project t)
  rw [List.length_map, List.length_map] at size
  refine List.ext_getElem? fun i => ?_
  rw [List.getElem?_map]
  cases here : (s.nodesOf project)[i]? with
  | none =>
    rw [List.getElem?_eq_none_iff] at here
    rw [Option.map_none, List.getElem?_eq_none_iff, size]
    exact here
  | some n => exact (foldl_applyOutcome_at keys here _).1

theorem revised_finish (keys : ((s.nodesOf project).map (·.hierarchyId)).Nodup) (t : Table) :
    (finish s project t).revised = ((s.nodesOf project).filter (movedBy t)).map (withRows t) := by
  refine Progress.revised_eq (nodes_finish keys t) fun i n here => ?_
  have changed := (foldl_applyOutcome_at (p := { nodes := s.nodesOf project
                                                 summary := { errors := t.problems } })
    keys here (t.rows.map t.mappingRow)).2
  exact changed.trans (by simp [movedBy, readable])

/-- The revised nodes are those that some row changed. -/
theorem replacing_finish (ids : (s.nodes.map (·.id)).Nodup)
    (keys : ((s.nodesOf project).map (·.hierarchyId)).Nodup) (t : Table) :
    s.replacing (finish s project t).revised =
      { s with nodes := s.nodes.map (afterMappings project t) } := by
  have within : ((s.nodesOf project).map (·.id)).Nodup := ids.sublist (List.filter_sublist.map _)
  rw [Store.replacing]
  congr 1
  refine List.map_congr_left fun n hn => ?_
  rw [revised_finish keys, afterMappings]
  by_cases own : n.projectId = project
  · have mem : n ∈ s.nodesOf project := Store.mem_nodesOf.mpr ⟨hn, own⟩
    rw [Node.replacedBy_map_filter (f := withRows t) within (fun _ => rfl) _ mem]
    simp only [own, true_and]
  · rw [if_neg fun both => own both.1, Node.replacedBy_of_notMem]
    intro there
    obtain ⟨m, hm, same⟩ := List.mem_map.mp there
    obtain ⟨old, hold, rfl⟩ := List.mem_map.mp hm
    obtain ⟨inStore, inProject⟩ := Store.mem_nodesOf.mp (List.mem_filter.mp hold).1
    exact own (List.inj_on_of_nodup_map ids inStore hn same ▸ inProject)

/-- The store after an import of mappings, node by node. -/
theorem table_eq_map (known : s.hasProject project = true) (ids : (s.nodes.map (·.id)).Nodup)
    (keys : ((s.nodesOf project).map (·.hierarchyId)).Nodup) (t : Table) :
    table .permissive s project t =
      .ok ({ s with nodes := s.nodes.map (afterMappings project t) },
        (finish s project t).summary) := by
  rw [table_eq known ids keys, replacing_finish ids keys]

end Table

/-! ## One node -/

section Node

variable {n : Node} (h : Ascending n.mappings) (project : String) (t : Table)

theorem place_afterMappings (n : Node) : (afterMappings project t n).place = n.place := by
  unfold afterMappings
  split_ifs <;> rfl

include h

theorem mappings_afterMappings : (afterMappings project t n).mappings =
    if n.projectId = project then (withRows t n).mappings else n.mappings := by
  unfold afterMappings
  by_cases own : n.projectId = project
  · rw [if_pos own]
    split_ifs with moved
    · rfl
    · have still : movedBy t n = false := by simpa [own] using moved
      have held := (moves_eq_false_iff _ h).mp still
      exact (putAll_of_holds h held).symm
  · rw [if_neg own, if_neg fun both => own both.1]

theorem ascending_afterMappings : Ascending (afterMappings project t n).mappings := by
  rw [mappings_afterMappings h]
  split_ifs
  · exact ascending_putAll _ h
  · exact h

/-- A second import of rows with indexes puts the same mappings on a node, but it writes the node
    again if some of its rows are contested. -/
theorem afterMappings_again (indexed : ∀ row ∈ readable t, row.mappingIndex ≠ none) :
    afterMappings project t (afterMappings project t n) =
      if n.projectId = project ∧ Contested (rowsFor (readable t) n.hierarchyId) then
        (afterMappings project t n).kept
      else afterMappings project t n := by
  set m := afterMappings project t n with hm
  have place : m.place = n.place := place_afterMappings project t n
  have projectId : m.projectId = n.projectId := congrArg Node.Place.projectId place
  have hierarchyId : m.hierarchyId = n.hierarchyId := congrArg Node.Place.hierarchyId place
  have indexed' : ∀ row ∈ rowsFor (readable t) n.hierarchyId, row.mappingIndex ≠ none :=
    fun row hrow => indexed row (List.mem_filter.mp hrow).1
  rw [afterMappings, projectId]
  by_cases own : n.projectId = project
  · have mappings : m.mappings = (withRows t n).mappings := by
      rw [hm, mappings_afterMappings h, if_pos own]
    have moved : movedBy t m = true ↔ Contested (rowsFor (readable t) n.hierarchyId) := by
      rw [movedBy, hierarchyId, mappings]
      exact moves_putAll_iff h indexed'
    have same : withRows t m = m := by
      rw [withRows, hierarchyId, mappings]
      have again : putAll (rowsFor (readable t) n.hierarchyId) (withRows t n).mappings =
          (withRows t n).mappings := putAll_putAll h indexed'
      rw [again, ← mappings]
      rfl
    simp only [own, true_and, moved, same]
  · simp only [own, false_and, if_false]

end Node

end Rollup.MappingImport

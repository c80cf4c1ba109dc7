import Mathlib.Data.List.Basic
import Mathlib.Tactic.SplitIfs
import Rollup.MappingImport
import Rollup.Proofs.Store.WellFormed

/-!
# What importing mappings leaves alone

Mapping rows change the mappings of nodes and nothing else, so a store stays well-formed.

Results:

* `unmapped_foldl`: while rows are put, nodes differ from the stored ones in their mappings only.
* `wellFormed_table`: a store is well-formed after an import of mappings.
-/

namespace Rollup

/-- A node without its mappings. -/
def Node.unmapped (n : Node) : Node :=
  { n with mappings := [] }

theorem Node.place_of_unmapped {m n : Node} (h : m.unmapped = n.unmapped) :
    m.place = n.place := by
  have : m.unmapped.place = n.unmapped.place := by rw [h]
  exact this

theorem Node.total?_of_unmapped {m n : Node} (h : m.unmapped = n.unmapped) :
    m.total? = n.total? := by
  have : m.unmapped.total? = n.unmapped.total? := by rw [h]
  exact this

/-- What does not look at mappings is the same for nodes that differ in them only. -/
theorem Node.map_of_unmapped {α : Type} {f : Node → α} (blind : ∀ n : Node, f n.unmapped = f n)
    {ns ns' : List Node} (same : ns'.map Node.unmapped = ns.map Node.unmapped) :
    ns'.map f = ns.map f := by
  have through : f ∘ Node.unmapped = f := funext blind
  have mapped := congrArg (List.map f) same
  rwa [List.map_map, List.map_map, through] at mapped

namespace MappingImport

/-! ## Putting rows -/

theorem unmapped_modify (nodes : List Node) (i : Nat) (mappings : List SourceMapping) :
    (nodes.modify i fun n => { n with mappings := mappings }).map Node.unmapped =
      nodes.map Node.unmapped := by
  refine List.ext_getElem? fun j => ?_
  rw [List.getElem?_map, List.getElem?_modify, List.getElem?_map]
  cases nodes[j]? with
  | none => rfl
  | some n => by_cases h : i = j <;> simp [h, Node.unmapped]

theorem unmapped_applyRow (p : Progress) (row : MappingRow) :
    (applyRow p row).nodes.map Node.unmapped = p.nodes.map Node.unmapped := by
  unfold applyRow
  cases row.hierarchyId with
  | none => rfl
  | some h =>
    dsimp only
    cases p.nodes.findIdx? (·.hierarchyId == h) with
    | none => rfl
    | some i =>
      dsimp only
      split
      · exact unmapped_modify p.nodes i _
      · exact unmapped_modify p.nodes i _
      · exact unmapped_modify p.nodes i _

theorem unmapped_foldl (outcomes : List (Except ImportError MappingRow)) : ∀ p : Progress,
    (outcomes.foldl applyOutcome p).nodes.map Node.unmapped = p.nodes.map Node.unmapped := by
  induction outcomes with
  | nil => intro p; rfl
  | cons o outcomes ih =>
    intro p
    rw [List.foldl_cons, ih]
    cases o with
    | ok row => exact unmapped_applyRow p row
    | error e => rfl

/-! ## Storing nodes -/

/-- The node stands for a stored one: same place, same total. -/
def Fits (s : Store) (n : Node) : Prop :=
  ∃ old ∈ s.nodes, n.place = old.place ∧ n.total? = old.total?

theorem fits_update {s t : Store} (h : s.WellFormed) {n m : Node} (hn : Fits s n) (hm : Fits s m)
    (written : s.update n = .ok t) : Fits t m := by
  obtain ⟨old, mem, place, total⟩ := hn
  obtain ⟨old', mem', place', total'⟩ := hm
  have nodes := Store.nodes_update written
  by_cases same : old'.id = n.id
  · have eq : old' = old :=
      List.inj_on_of_nodup_map h.ids mem' mem (same.trans (congrArg Node.Place.id place))
    subst eq
    refine ⟨{ n.kept with projectId := old'.projectId }, ?_, ?_, ?_⟩
    · rw [nodes]
      exact List.mem_map.mpr ⟨old', mem', by rw [if_pos same]⟩
    · have project : n.projectId = old'.projectId := congrArg Node.Place.projectId place
      rw [place', ← place]
      simp only [Node.place, ← project]
      rfl
    · rw [total', ← total]
      exact (Node.total?_kept n).symm
  · refine ⟨old', ?_, place', total'⟩
    rw [nodes]
    exact List.mem_map.mpr ⟨old', mem', by rw [if_neg same]⟩

theorem wellFormed_foldl_storeNode (todo : List Node) : ∀ acc : Store × Summary,
    acc.1.WellFormed → (∀ n ∈ todo, Fits acc.1 n) →
    (todo.foldl (storeNode .permissive) acc).1.WellFormed := by
  induction todo with
  | nil => intro acc h _; exact h
  | cons n todo ih =>
    intro acc h fits
    rw [List.foldl_cons]
    have fitsN := fits n (by simp)
    unfold storeNode
    simp only [Store.guardedUpdate, WriteGuard.permissive]
    cases written : acc.1.update n with
    | error cause => exact ih _ h fun m hm => fits m (by simp [hm])
    | ok t =>
      refine ih _ ?_ fun m hm => fits_update h fitsN (fits m (by simp [hm])) written
      obtain ⟨old, mem, place, total⟩ := fitsN
      exact h.update written mem place total

/-- A store is well-formed after an import of mappings. -/
theorem wellFormed_table {s t : Store} (h : s.WellFormed) {project : String} {table : Table}
    {summary : Summary}
    (done : MappingImport.table .permissive s project table = .ok (t, summary)) :
    t.WellFormed := by
  unfold MappingImport.table at done
  split_ifs at done with known
  simp only [Except.ok.injEq] at done
  set p := (table.rows.map table.mappingRow).foldl applyOutcome
    { nodes := s.nodesOf project, summary := { errors := table.problems } } with hp
  have frame : p.nodes.map Node.unmapped = (s.nodesOf project).map Node.unmapped := by
    rw [hp, unmapped_foldl]
  have run := wellFormed_foldl_storeNode
    ((p.nodes.zipIdx.filter fun q => q.2 ∈ p.changed).map (·.1)) (s, p.summary) h ?_
  · rw [done] at run
    exact run
  · intro n hn
    obtain ⟨q, hq, rfl⟩ := List.mem_map.mp hn
    have mem := List.mem_map_of_mem (f := Node.unmapped)
      (List.fst_mem_of_mem_zipIdx (List.mem_of_mem_filter hq))
    rw [frame] at mem
    obtain ⟨old, hold, same⟩ := List.mem_map.mp mem
    exact ⟨old, (Store.mem_nodesOf.mp hold).1, (Node.place_of_unmapped same).symm,
      (Node.total?_of_unmapped same).symm⟩

end MappingImport

end Rollup

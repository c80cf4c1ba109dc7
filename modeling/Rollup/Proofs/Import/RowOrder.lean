import Rollup.Proofs.Import.Singles
import Rollup.Proofs.Store.WellFormed

/-!
# The order of explicit rows

Standard rows that name their places explicitly, imported into an empty project, are stored under
their ids, each below the row that it names. This does not depend on the order of the rows, nor on
their numbers.

Results:

* `sketch_rows`: what an import of explicit rows stores.
* `rows_of_perm`: rows in another order store the same.
-/

namespace Rollup

open HierarchyRow

/-- What is stored of a node, with its parent named by hierarchy id. -/
structure Node.Sketch where
  hierarchyId : String
  name : String
  parent : Option String
  isRoot : Bool
  leaf : Bool
  deriving DecidableEq, Repr

/-- The hierarchy id of the stored parent of a node. -/
def Store.parentKey? (s : Store) (n : Node) : Option String :=
  n.parentId.bind fun id => (s.nodes.find? (·.id == id)).map (·.hierarchyId)

def Store.sketch (s : Store) (n : Node) : Node.Sketch where
  hierarchyId := n.hierarchyId
  name := n.name
  parent := s.parentKey? n
  isRoot := n.isRoot
  leaf := n.flags.leaf

/-- What an explicit row among others comes to. It is a leaf as it says if the rows mark leaves, else
    if no row names it as its parent. -/
def HierarchyRow.sketch (w : Window) (rows : List HierarchyRow) (marks : Bool) (r : HierarchyRow) :
    Node.Sketch where
  hierarchyId := r.hierarchyId.getD ""
  name := (RowGroup.Standard.rowName w r).getD (r.hierarchyId.getD "")
  parent := parentKey? w rows r
  isRoot := (parentKey? w rows r).isNone
  leaf := if marks then (r.solo w).mergedFlags.leaf
    else !rows.any fun c => parentKey? w rows c == r.hierarchyId

/-! ## What rows come to in another order -/

section Congr

variable {w : Window} {rows rows' : List HierarchyRow} {r r' : HierarchyRow}
  (perm : (rows.map unnumbered).Perm (rows'.map unnumbered))

include perm

theorem any_parentKey?_congr (h : DistinctKeys w rows) (id : Option String)
    (named : (rows.any fun c => parentKey? w rows c == id) = true) :
    (rows'.any fun c => parentKey? w rows' c == id) = true := by
  obtain ⟨c, hc, key⟩ := List.any_eq_true.mp named
  obtain ⟨c', hc', same⟩ := exists_renumbered perm hc
  refine List.any_eq_true.mpr ⟨c', hc', ?_⟩
  rwa [← parentKey?_congr perm h same]

/-- What a row comes to depends on what the rows say. -/
theorem HierarchyRow.sketch_congr (h : DistinctKeys w rows) (h' : DistinctKeys w rows')
    (same : r.unnumbered = r'.unnumbered) (marks : Bool) :
    r.sketch w rows marks = r'.sketch w rows' marks := by
  have parent := parentKey?_congr perm h same
  have id : r.hierarchyId = r'.hierarchyId := eq_of_unnumbered (·.hierarchyId) (fun _ => rfl) same
  have name : RowGroup.Standard.rowName w r = RowGroup.Standard.rowName w r' :=
    eq_of_unnumbered (RowGroup.Standard.rowName w) (fun _ => rfl) same
  have leaf : (r.solo w).mergedFlags.leaf = (r'.solo w).mergedFlags.leaf :=
    eq_of_unnumbered (fun u => (u.solo w).mergedFlags.leaf) (fun _ => rfl) same
  have named : (rows.any fun c => parentKey? w rows c == r'.hierarchyId) =
      rows'.any fun c => parentKey? w rows' c == r'.hierarchyId :=
    Bool.eq_iff_iff.mpr ⟨any_parentKey?_congr perm h _, any_parentKey?_congr perm.symm h' _⟩
  rw [sketch, sketch, parent, id, name, leaf, named]

/-- Explicit rows come to the same in every order and under all numbers. -/
theorem perm_map_sketch (h : Explicit w rows) (marks : Bool) :
    (rows.map fun r => r.sketch w rows marks).Perm (rows'.map fun r => r.sketch w rows' marks) := by
  have plain : ∀ rows : List HierarchyRow, DistinctKeys w rows →
      (rows.map fun r => r.sketch w rows marks) =
        (rows.map unnumbered).map fun r => r.sketch w (rows.map unnumbered) marks := by
    intro rows keys
    rw [List.map_map]
    refine List.map_congr_left fun r _ => ?_
    refine sketch_congr ?_ keys (distinctKeys_unnumbered.mpr keys) rfl marks
    rw [List.map_map]
    exact List.Perm.refl _
  have keys := distinctKeys_unnumbered.mpr h.toDistinctKeys
  have keys' := distinctKeys_unnumbered.mpr (h.congr perm).toDistinctKeys
  rw [plain rows h.toDistinctKeys, plain rows' (h.congr perm).toDistinctKeys]
  refine (perm.map _).trans (List.Perm.of_eq (List.map_congr_left fun r _ => ?_))
  exact sketch_congr (perm.map unnumbered) keys keys' rfl marks

end Congr

/-! ## What an import stores -/

namespace ImportPlan

theorem Singles.mem_links {p : ImportPlan} {w : Window} {us : List HierarchyRow}
    (singles : p.Singles w us) (h : Explicit w us) {k : Nat} {r : HierarchyRow}
    (here : us[k]? = some r) :
    k ∈ (p.filled []).newPositions.filterMap (p.links []) ↔
      ∃ c ∈ us, HierarchyRow.parentKey? w us c = r.hierarchyId := by
  rw [List.mem_filterMap, (singles.proposes h).positions]
  constructor
  · rintro ⟨j, hj, link⟩
    rw [List.mem_range'_1] at hj
    obtain ⟨c, there⟩ : ∃ c, us[j]? = some c := ⟨_, List.getElem?_eq_getElem (by omega)⟩
    have rel := singles.rel_links h there
    rw [link] at rel
    generalize row : parentRow? w us c = o at rel
    cases rel with
    | @some _ a up =>
      obtain rfl : a = r := Option.some.inj (up.symm.trans here)
      exact ⟨c, List.mem_of_getElem? there, by rw [HierarchyRow.parentKey?, row, Option.bind_some]⟩
  · rintro ⟨c, hc, key⟩
    obtain ⟨j, there⟩ := List.getElem?_of_mem hc
    obtain ⟨id, has, -⟩ := h.filled r (List.mem_of_getElem? here)
    rw [has] at key
    obtain ⟨a, row, id'⟩ := Option.bind_eq_some_iff.mp key
    have rel := singles.rel_links h there
    rw [row] at rel
    generalize link : p.links [] j = o at rel
    cases rel with
    | @some i _ up =>
      have distinct := RowGroup.Standard.nodup_hierarchyId h.filled h.ids
      obtain rfl : i = k := index_of_nodup_map distinct up here (by rw [id', has])
      refine ⟨j, ?_, link⟩
      rw [List.mem_range'_1]
      have := (List.getElem?_eq_some_iff.mp there).1
      omega

/-- Where the rows do not mark leaves, a node is one if no row names its row. -/
theorem Singles.leafMark_eq {p : ImportPlan} {w : Window} {us : List HierarchyRow}
    (singles : p.Singles w us) (h : Explicit w us) {k : Nat} {r : HierarchyRow}
    (here : us[k]? = some r) (marks leaf : Bool) :
    p.leafMark [] marks k leaf = if marks then leaf
      else !us.any fun c => HierarchyRow.parentKey? w us c == r.hierarchyId := by
  have named : ((p.filled []).newPositions.filterMap (p.links [])).contains k =
      us.any fun c => HierarchyRow.parentKey? w us c == r.hierarchyId := by
    rw [Bool.eq_iff_iff, List.contains_iff_mem, singles.mem_links h here, List.any_eq_true]
    simp only [beq_iff_eq]
  rw [leafMark, named]

section Made

variable {p : ImportPlan} {w : Window} {us : List HierarchyRow} (singles : p.Singles w us)
  (h : Explicit w us) {marks : Bool} {ids : List String} {made : List Node}
  (o : p.Outcome [] marks [] ids made)

include singles h o

/-- The node that is stored for a row. -/
theorem Singles.made_at {k : Nat} {m : Node} (hm : made[k]? = some m) :
    ∃ r, us[k]? = some r ∧ m.hierarchyId = r.hierarchyId.getD "" ∧ m.name = (r.solo w).name ∧
      m.parentId = (p.links [] k).bind (ids[·]?) ∧ m.isRoot = m.parentId.isNone ∧
      m.flags.leaf = p.leafMark [] marks k (r.solo w).mergedFlags.leaf := by
  obtain ⟨e, id, he, -, eq⟩ := o.made_at hm
  rw [singles.drafts_eq h, List.getElem?_map, List.getElem?_zipIdx, Option.map_eq_some_iff] at he
  obtain ⟨q, hq, rfl⟩ := he
  obtain ⟨r, here, rfl⟩ := Option.map_eq_some_iff.mp hq
  have parent : m.parentId = (p.links [] k).bind (ids[·]?) := congrArg Node.parentId eq
  refine ⟨r, here, congrArg Node.hierarchyId eq, congrArg Node.name eq, parent, ?_,
    congrArg (fun n : Node => n.flags.leaf) eq⟩
  rw [parent]
  exact congrArg Node.isRoot eq

/-- The parent of the node of a row is the node of the row that it names. -/
theorem Singles.parentKey?_made {t : Store} {before : List Node}
    (nodes : t.nodes = before ++ made) (distinct : (t.nodes.map (·.id)).Nodup) {k : Nat} {m : Node}
    {r : HierarchyRow} (here : us[k]? = some r)
    (parent : m.parentId = (p.links [] k).bind (ids[·]?)) :
    t.parentKey? m = HierarchyRow.parentKey? w us r ∧
      m.parentId.isNone = (HierarchyRow.parentKey? w us r).isNone := by
  have rel := singles.rel_links h here
  rw [Store.parentKey?, parent, HierarchyRow.parentKey?]
  revert rel
  generalize p.links [] k = link
  generalize parentRow? w us r = row
  intro rel
  cases rel with
  | none => exact ⟨rfl, rfl⟩
  | @some i a there =>
    have bound : i < made.length := by
      rw [o.length_made, singles.length_drafts h]
      exact (List.getElem?_eq_some_iff.mp there).1
    have hm' : made[i]? = some made[i] := List.getElem?_eq_getElem bound
    obtain ⟨a', there', id, -⟩ := singles.made_at h o hm'
    obtain rfl : a' = a := Option.some.inj (there'.symm.trans there)
    obtain ⟨key, has, -⟩ := h.filled a' (List.mem_of_getElem? there)
    have stored : ids[i]? = some made[i].id := by
      rw [← o.map_id, List.getElem?_map, hm', Option.map_some]
    have found : t.nodes.find? (·.id == made[i].id) = some made[i] := by
      refine find?_of_nodup distinct (i := before.length + i) ?_
      rw [nodes, List.getElem?_append_right (Nat.le_add_right _ _), Nat.add_sub_cancel_left, hm']
    rw [Option.bind_some, Option.bind_some, stored, Option.bind_some, found, Option.map_some, id, has]
    exact ⟨rfl, rfl⟩

/-- What the nodes of the rows come to. -/
theorem Singles.map_sketch {t : Store} {before : List Node} (nodes : t.nodes = before ++ made)
    (distinct : (t.nodes.map (·.id)).Nodup) :
    made.map t.sketch = us.map fun r => r.sketch w us marks := by
  refine List.ext_getElem? fun k => ?_
  rw [List.getElem?_map, List.getElem?_map]
  cases hm : made[k]? with
  | none =>
    rw [List.getElem?_eq_none_iff, o.length_made, singles.length_drafts h] at hm
    rw [List.getElem?_eq_none_iff.mpr hm]
    rfl
  | some m =>
    obtain ⟨r, here, id, name, parent, root, leaf⟩ := singles.made_at h o hm
    obtain ⟨key, none⟩ := singles.parentKey?_made h o nodes distinct here parent
    rw [here, Option.map_some, Option.map_some, Store.sketch, HierarchyRow.sketch, id, name, key, root,
      none, leaf, singles.leafMark_eq h here]
    rfl

end Made

end ImportPlan

namespace Import

/-- What an import of explicit rows into an empty project stores. -/
theorem sketch_rows {s : Store} {project : String} {w : Window} (marks : Bool)
    {rs : List HierarchyRow} (known : s.hasProject project = true)
    (ids : (s.nodes.map (·.id)).Nodup) (empty : s.nodesOf project = []) (h : Explicit w rs) :
    let t := (rows .permissive s project .standard w marks rs).1
    ((t.nodesOf project).map t.sketch).Perm (rs.map fun r => r.sketch w rs marks) := by
  intro t
  obtain ⟨us, perm, groups⟩ := RowGroup.Standard.exists_group_eq (w := w) h.filled h.ids
  have named : ∀ n ∈ s.nodesOf project, n.id ≠ "" := by simp [empty]
  have keys : ((s.nodesOf project).map (·.hierarchyId)).Nodup := by simp [empty]
  obtain ⟨added, ids', made, warnings, o, fresh, eq⟩ :=
    rows_outcome s project .standard w marks rs known ids named keys
  have singles : (ImportPlan.ofRows project .standard w rs).1.Singles w us := ⟨rfl, groups, rfl⟩
  rw [empty] at o
  obtain rfl : added = [] := List.sublist_nil.mp (singles.placeholders ▸ o.sublist)
  have nodes : t.nodes = s.nodes ++ made := congrArg (fun q => q.1.nodes) eq
  have distinct : (t.nodes.map (·.id)).Nodup := by
    rw [nodes, List.map_append, o.map_id]
    exact List.nodup_append.mpr ⟨ids, o.nodup, fun a ha b hb same => (fresh b hb).2 (same ▸ ha)⟩
  have inProject : ∀ m ∈ made, m.projectId = project := fun m hm => o.inProject hm
  have stored : t.nodesOf project = made := by
    rw [Store.nodesOf_append nodes inProject, empty, if_pos rfl, List.nil_append]
  have explicit : Explicit w us := h.congr (perm.symm.map unnumbered)
  rw [stored, singles.map_sketch explicit o nodes distinct]
  exact perm_map_sketch (perm.map unnumbered) explicit marks

/-- Explicit rows store the same nodes below the same parents in every order and under all numbers. -/
theorem rows_of_perm (s : Store) (project : String) (w : Window) (marks : Bool)
    {rs rs' : List HierarchyRow} (known : s.hasProject project = true)
    (ids : (s.nodes.map (·.id)).Nodup) (empty : s.nodesOf project = []) (h : Explicit w rs)
    (perm : (rs.map unnumbered).Perm (rs'.map unnumbered)) :
    let t := (rows .permissive s project .standard w marks rs).1
    let t' := (rows .permissive s project .standard w marks rs').1
    ((t.nodesOf project).map t.sketch).Perm ((t'.nodesOf project).map t'.sketch) := by
  intro t t'
  calc ((t.nodesOf project).map t.sketch).Perm (rs.map fun r => r.sketch w rs marks) :=
        sketch_rows marks known ids empty h
    List.Perm _ (rs'.map fun r => r.sketch w rs' marks) := perm_map_sketch perm h marks
    List.Perm _ ((t'.nodesOf project).map t'.sketch) :=
        (sketch_rows marks known ids empty (h.congr perm)).symm

/-- A row and three rows below it, which name their parents by key, by path and by id. -/
def fourRows : List HierarchyRow :=
  [{ number := 1, hierarchyId := some "C", parentXrefKey := some 7 },
   { number := 2, hierarchyId := some "D", parentHierarchyId := some "B" },
   { number := 3, hierarchyId := some "B", levels := ["Top", "Sub"] },
   { number := 4, hierarchyId := some "A", xrefKey := some 7, levels := ["Top"] }]

theorem explicit_fourRows : Explicit Window.standard fourRows where
  ids := by decide +kernel
  xrefs := by decide +kernel
  paths := by decide +kernel
  filled := by decide +kernel
  acyclic := by
    refine acyclic_of_rank (fun id => if id = "A" then 0 else if id = "D" then 2 else 1) ?_
    decide +kernel

/-- The four rows in the opposite order. -/
theorem rows_of_perm_fourRows :
    let rows' := fourRows.reverse.mapIdx fun i r => { r with number := i + 1 }
    let t := (rows .permissive { projects := [⟨"P", "P"⟩] } "P" .standard .standard false fourRows).1
    let t' := (rows .permissive { projects := [⟨"P", "P"⟩] } "P" .standard .standard false rows').1
    ((t.nodesOf "P").map t.sketch).Perm ((t'.nodesOf "P").map t'.sketch) ∧
      (t.nodesOf "P").map t.sketch =
        [⟨"C", "C", some "A", false, true⟩, ⟨"D", "D", some "B", false, true⟩,
         ⟨"B", "Sub", some "A", false, false⟩, ⟨"A", "Top", none, true, false⟩] := by
  intro rows' t t'
  have perm : (fourRows.map unnumbered).Perm (rows'.map unnumbered) :=
    (List.reverse_perm (fourRows.map unnumbered)).symm
  exact ⟨rows_of_perm _ _ _ _ (by decide +kernel) (by decide) rfl explicit_fourRows perm,
    by decide +kernel⟩

end Import

end Rollup

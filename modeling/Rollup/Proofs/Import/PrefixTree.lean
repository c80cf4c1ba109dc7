import Mathlib.Data.List.Basic
import Rollup.Proofs.HierarchyRow
import Rollup.Proofs.Import.EmptyProject
import Rollup.Proofs.LevelPath
import Rollup.Proofs.RowGroup.Build
import Rollup.Proofs.RowGroup.Legacy
import Rollup.Proofs.Store.WellFormed

/-!
# Legacy imports build the tree of leading parts

The paths of legacy rows span a tree: its nodes are the non-empty leading parts of the paths, and
the parent of a leading part is the one without its last step. An import of legacy rows into an
empty project stores this tree.

Results:

* `mem_treePaths`: groups and placeholders together have the leading parts of all paths.
* `proposal_legacy`: the proposed parent of a leading part is the one without its last step.
* `rows_prefixTree`: the nodes that are stored.
-/

namespace Rollup

/-! ## Leading parts -/

namespace RowGroup.Legacy

/-- The paths of groups and of the placeholders that they need. -/
def treePaths (groups : List RowGroup) : List (List String) :=
  groups.map (·.path) ++ (missingAncestors groups).map (·.path)

theorem nodup_treePaths (w : Window) (rows : List HierarchyRow) :
    (treePaths (group w rows).1).Nodup := by
  refine List.nodup_append.mpr ⟨nodup_map_path_group w rows, nodup_missingAncestors _, ?_⟩
  rintro q hq q' hq' rfl
  exact (mem_map_path_missingAncestors.mp hq').1 hq

/-- Groups and placeholders together have the leading parts of all paths. -/
theorem mem_treePaths {w : Window} {rows : List HierarchyRow} {q : List String} :
    q ∈ treePaths (group w rows).1 ↔ q ≠ [] ∧ ∃ row ∈ rows, q <+: rowPath w row := by
  rw [treePaths, List.mem_append, mem_map_path_missingAncestors]
  constructor
  · rintro (here | ⟨-, g, hg, hq⟩)
    · obtain ⟨ne, row, hrow, rfl⟩ := mem_map_path_group.mp here
      exact ⟨ne, row, hrow, List.prefix_rfl⟩
    · obtain ⟨ne, part, -⟩ := LevelPath.mem_ancestors.mp hq
      obtain ⟨-, row, hrow, same⟩ := mem_map_path_group.mp (List.mem_map_of_mem hg)
      exact ⟨ne, row, hrow, same ▸ part⟩
  · rintro ⟨ne, row, hrow, part⟩
    by_cases here : q ∈ (group w rows).1.map (·.path)
    · exact Or.inl here
    · refine Or.inr ⟨here, ?_⟩
      have rowNe : rowPath w row ≠ [] := fun e => ne (List.prefix_nil.mp (e ▸ part))
      obtain ⟨g, hg, same⟩ := List.mem_map.mp (mem_map_path_group.mpr ⟨rowNe, row, hrow, rfl⟩)
      refine ⟨g, hg, LevelPath.mem_ancestors.mpr ⟨ne, same ▸ part, ?_⟩⟩
      rintro rfl
      exact here (List.mem_map_of_mem hg)

/-- The tree has the parents of its paths. -/
theorem dropLast_mem_treePaths {w : Window} {rows : List HierarchyRow} {q : List String}
    (mem : q ∈ treePaths (group w rows).1) (long : 1 < q.length) :
    q.dropLast ∈ treePaths (group w rows).1 := by
  obtain ⟨-, row, hrow, part⟩ := mem_treePaths.mp mem
  refine mem_treePaths.mpr ⟨?_, row, hrow, (List.dropLast_prefix q).trans part⟩
  rw [← List.length_pos_iff, List.length_dropLast]
  omega

end RowGroup.Legacy

/-! ## The batch of legacy rows -/

namespace ImportPlan

open RowGroup.Legacy

section Legacy

variable {project : String} {w : Window} {rs : List HierarchyRow} {p : ImportPlan}
  (plan : p = (ofRows project .legacy w rs).1)
  (distinct : (p.groups.map (·.hierarchyId) ++ p.placeholders.map (·.hierarchyId)).Nodup)

include plan

theorem groups_legacy : p.groups = (group w rs).1 := by
  rw [plan]
  rfl

theorem placeholders_legacy : p.placeholders = missingAncestors p.groups := by
  rw [plan]
  rfl

theorem path_ne_nil_of_mem_treePaths {q : List String} (mem : q ∈ treePaths p.groups) : q ≠ [] := by
  rw [groups_legacy plan] at mem
  exact (mem_treePaths.mp mem).1

include distinct

/-- All groups and all placeholders are added, and every path leads to its position. -/
theorem filled_legacy : (p.filled []).entries = p.drafts [] p.placeholders ∧
    (p.filled []).fresh.paths = (treePaths p.groups).zipIdx ∧ (p.filled []).stored = {} := by
  have groupIds := (List.nodup_append.mp distinct).1
  have nodup : (treePaths p.groups).Nodup := by
    rw [groups_legacy plan]
    exact nodup_treePaths w rs
  have firstPaths : (p.grouped []).fresh.paths = (p.groups.map (·.path)).zipIdx := by
    rw [grouped_of_distinct groupIds, List.zipIdx_map]
    have all : (p.groups.zipIdx.filter fun q => q.1.path ≠ []) = p.groups.zipIdx := by
      rw [List.filter_eq_self]
      intro q hq
      rw [decide_eq_true_eq]
      refine path_ne_nil_of_mem_treePaths plan (List.mem_append_left _ ?_)
      exact List.mem_map_of_mem (List.fst_mem_of_mem_zipIdx hq)
    rw [all]
    rfl
  have size : (p.grouped []).size = p.groups.length := by
    rw [grouped_of_distinct groupIds, Batch.size, List.length_map, List.length_zipIdx]
  have run := Assembly.foldl_addPlaceholder_new (p := p) p.placeholders (p.grouped [])
    (by rw [grouped_of_distinct groupIds])
    (by
      rw [grouped_of_distinct groupIds, List.map_map]
      exact (map_zipIdx_fst (·.hierarchyId) p.groups).symm ▸ distinct)
    (by
      rw [firstPaths, List.zipIdx_map_fst, placeholders_legacy plan]
      exact nodup)
    (by
      intro h hh
      refine path_ne_nil_of_mem_treePaths plan (List.mem_append_right _ ?_)
      rw [← placeholders_legacy plan]
      exact List.mem_map_of_mem hh)
  rw [filled, run]
  refine ⟨?_, ?_, ?_⟩
  · rw [grouped_of_distinct groupIds, drafts, newGroups_of_distinct groupIds]
  · rw [firstPaths, size, treePaths, List.zipIdx_append, placeholders_legacy plan,
      List.length_map, Nat.zero_add]
  · rw [grouped_of_distinct groupIds]

/-- No placeholder is left out. -/
theorem Outcome.added_eq {marks : Bool} {added : List Placeholder} {ids : List String}
    {made : List Node} (o : p.Outcome [] marks added ids made) : added = p.placeholders := by
  refine o.sublist.eq_of_length ?_
  have lengths := congrArg List.length o.drafted.entries
  rw [(filled_legacy plan distinct).1] at lengths
  simpa [drafts] using lengths.symm

omit distinct in
theorem map_path_drafts (groupIds : (p.groups.map (·.hierarchyId)).Nodup) :
    (p.drafts [] p.placeholders).map (·.path) = treePaths p.groups := by
  rw [drafts, newGroups_of_distinct groupIds, List.map_append, List.map_map, List.map_map,
    treePaths, placeholders_legacy plan]
  exact congrArg (· ++ _) (map_zipIdx_fst (·.path) p.groups)

/-- The proposed parent of a leading part is the one without its last step. -/
theorem proposal_legacy (unkeyed : ∀ row ∈ rs, row.parentXrefKey = none) {i j : Nat}
    {q : List String} (hq : (treePaths p.groups)[i]? = some q) :
    (p.filled []).proposal .legacy p.groups i = some j ↔
      1 < q.length ∧ (treePaths p.groups)[j]? = some q.dropLast := by
  obtain ⟨entries, paths, stored⟩ := filled_legacy plan distinct
  have nodup : (treePaths p.groups).Nodup := by
    rw [groups_legacy plan]
    exact nodup_treePaths w rs
  -- the entry at the position, and its path
  have here : ((p.drafts [] p.placeholders)[i]?).map (·.path) = some q := by
    rw [← List.getElem?_map, map_path_drafts plan (List.nodup_append.mp distinct).1, hq]
  obtain ⟨e, he, rfl⟩ := Option.map_eq_some_iff.mp here
  rw [Batch.proposal, entries, he, Option.bind_some]
  have byXref : ∀ row ∈ (e.group.bind (p.groups[·]?)).map (·.leader),
      (p.filled []).byParentXref? i row = none := by
    intro row hrow
    obtain ⟨g, hg, rfl⟩ := Option.map_eq_some_iff.mp hrow
    obtain ⟨gi, -, hg⟩ := Option.bind_eq_some_iff.mp hg
    have mem := List.mem_of_getElem? hg
    rw [groups_legacy plan] at mem
    rw [Batch.byParentXref?, unkeyed _ ((mem_group mem).2.1 g.leader (by simp [RowGroup.rows])).1]
    rfl
  have byPath : ((p.filled []).proposedParent .legacy p.groups i e).1 =
      ((p.filled []).legacyPathParent i e).1 := by
    simp only [Batch.proposedParent]
    cases leader : (e.group.bind (p.groups[·]?)).map (·.leader) with
    | none => rfl
    | some row => rw [Batch.legacyParent_fst, byXref row leader, Option.none_or]
  rw [byPath, Batch.legacyPathParent, LevelPath.parent?]
  by_cases long : 1 < e.path.length
  · have mem : e.path.dropLast ∈ treePaths p.groups := by
      have := List.mem_of_getElem? hq
      rw [groups_legacy plan] at this ⊢
      exact dropLast_mem_treePaths this long
    obtain ⟨k, hk⟩ := List.getElem?_of_mem mem
    have found : (p.filled []).byPath? e.path.dropLast = some k := by
      rw [Batch.byPath?, KeyTable.path?, paths, (lookup_zipIdx nodup).mpr hk, Option.some_or]
    have other : k ≠ i := by
      rintro rfl
      have same := Option.some.inj (hk.symm.trans hq)
      have := congrArg List.length same
      rw [List.length_dropLast] at this
      omega
    rw [if_pos long]
    dsimp only
    rw [found]
    simp only [Batch.except, Option.filter_some, bne_iff_ne, ne_eq, other, not_false_eq_true,
      if_true, Option.some_or, Option.some.injEq, long, true_and]
    rw [← hk]
    exact ⟨fun same => same ▸ rfl, fun same =>
      ((List.getElem?_inj (List.getElem?_eq_some_iff.mp hk).1 nodup).mp same.symm)⟩
  · rw [if_neg long]
    exact ⟨fun h => (by cases h), fun h => absurd h.1 long⟩

end Legacy

end ImportPlan

/-! ## Marks of placeholders -/

/-- Whether the row can be read from a legacy file. -/
def HierarchyRow.IsLegacy (r : HierarchyRow) : Prop :=
  ∃ (t : Table) (columns : List String) (row : Row), t.legacyRow columns row = .ok r

/-- No legacy row marks its node as a placeholder. -/
theorem HierarchyRow.IsLegacy.unmarked {r : HierarchyRow} (h : r.IsLegacy) :
    Node.placeholderKey ∉ r.metadata.map (·.1) := by
  intro mem
  obtain ⟨t, columns, row, read⟩ := h
  obtain ⟨q, hq, same⟩ := List.mem_map.mp mem
  exact (Table.unmarked_hierarchyRow (d := .legacy) read q hq).1 same

/-- The stored node of a group of legacy rows is not marked. -/
theorem RowGroup.get?_placeholderKey_node {g : RowGroup} (legacy : ∀ row ∈ g.rows, row.IsLegacy)
    (project : String) :
    Dict.get? Node.placeholderKey (Value.keptFields (g.node project).metadata) = none := by
  rw [Value.get?_keptFields, Option.map_eq_none_iff, node, get?_firstEntries,
    ← Option.not_isSome_iff_eq_none, lookup_isSome_iff_mem]
  intro mem
  obtain ⟨q, hq, same⟩ := List.mem_map.mp mem
  obtain ⟨row, hrow, hq⟩ := List.mem_flatMap.mp hq
  exact (legacy row hrow).unmarked (same ▸ List.mem_map_of_mem hq)

/-! ## The tree -/

/-- The nodes form the tree of the leading parts of the paths: there is one node for each, below
    the node of the part without its last step, and exactly those that are no path themselves are
    marked as placeholders. -/
structure IsPrefixTree (paths : List (List String)) (nodes : List Node) : Prop where
  nodup : (nodes.map (·.levelPath)).Nodup
  mem_iff : ∀ q, q ∈ nodes.map (·.levelPath) ↔ q ≠ [] ∧ ∃ path ∈ paths, q <+: path
  name : ∀ n ∈ nodes, n.levelPath.getLast? = some n.name
  parent : ∀ n ∈ nodes, 1 < n.levelPath.length →
    ∃ m ∈ nodes, m.levelPath = n.levelPath.dropLast ∧ n.parentId = some m.id
  top : ∀ n ∈ nodes, n.levelPath.length = 1 → n.parentId = none
  root_iff : ∀ n ∈ nodes, n.isRoot = true ↔ n.levelPath.length = 1
  marked_iff : ∀ n ∈ nodes,
    Dict.get? Node.placeholderKey n.metadata = some (.bool true) ↔ n.levelPath ∉ paths

namespace ImportPlan

open RowGroup.Legacy

section Legacy

variable {project : String} {w : Window} {rs : List HierarchyRow} {p : ImportPlan}
  (plan : p = (ofRows project .legacy w rs).1)

include plan

/-- What the entries of groups and placeholders of legacy rows say. -/
theorem draft_legacy (legacy : ∀ r ∈ rs, r.IsLegacy)
    (groupIds : (p.groups.map (·.hierarchyId)).Nodup) {e : BatchEntry}
    (mem : e ∈ p.drafts [] p.placeholders) :
    e.node.levelPath = e.path ∧ e.node.name = e.path.getLast?.getD "" ∧
      (Dict.get? Node.placeholderKey (Value.keptFields e.node.metadata) = some (.bool true) ↔
        e.path ∉ rs.map (rowPath w)) ∧
      (e.origin = .synthesized ↔ e.path ∉ rs.map (rowPath w)) := by
  rw [drafts, newGroups_of_distinct groupIds] at mem
  rcases List.mem_append.mp mem with mem | mem
  · obtain ⟨q, hq, rfl⟩ := List.mem_map.mp mem
    have hg := List.fst_mem_of_mem_zipIdx hq
    rw [groups_legacy plan] at hg
    obtain ⟨-, rows, name, -⟩ := mem_group hg
    have own : q.1.path ∈ rs.map (rowPath w) := by
      obtain ⟨hrow, same⟩ := rows q.1.leader (by simp [RowGroup.rows])
      exact same ▸ List.mem_map_of_mem hrow
    refine ⟨rfl, name, ?_, ?_⟩
    · rw [show (Assembly.groupEntry p.project q).node = q.1.node p.project from rfl,
        RowGroup.get?_placeholderKey_node fun row hrow => legacy row (rows row hrow).1]
      exact ⟨fun h => (by cases h), fun h => absurd own h⟩
    · exact ⟨fun h => (by cases h), fun h => absurd own h⟩
  · obtain ⟨h, hh, rfl⟩ := List.mem_map.mp mem
    rw [placeholders_legacy plan] at hh
    obtain ⟨g, hg, a, ha, rfl, absent⟩ := mem_missingAncestors hh
    have foreign : a ∉ rs.map (rowPath w) := by
      rw [groups_legacy plan, mem_map_path_group] at absent
      intro mem
      obtain ⟨row, hrow, same⟩ := List.mem_map.mp mem
      exact absent ⟨(LevelPath.mem_ancestors.mp ha).1, row, hrow, same⟩
    exact ⟨rfl, rfl, ⟨fun _ => foreign, fun _ => rfl⟩, ⟨fun _ => foreign, fun _ => rfl⟩⟩

section Made

variable {marks : Bool} {ids : List String} {made : List Node}
  (distinct : (p.groups.map (·.hierarchyId) ++ p.placeholders.map (·.hierarchyId)).Nodup)
  (o : p.Outcome [] marks p.placeholders ids made)

include distinct o

/-- Every link leads to the path without its last step. -/
theorem Outcome.links_legacy (unkeyed : ∀ row ∈ rs, row.parentXrefKey = none) {i j : Nat}
    {q : List String} (hq : (treePaths p.groups)[i]? = some q) :
    p.links [] i = some j ↔ 1 < q.length ∧ (treePaths p.groups)[j]? = some q.dropLast := by
  have groupIds := (List.nodup_append.mp distinct).1
  have dialect : p.dialect = .legacy := by rw [plan]; rfl
  have proposed : ∀ {i j : Nat} {q : List String}, (treePaths p.groups)[i]? = some q →
      ((p.filled []).proposal p.dialect p.groups i = some j ↔
        1 < q.length ∧ (treePaths p.groups)[j]? = some q.dropLast) := by
    intro i j q hq
    rw [dialect]
    exact proposal_legacy plan distinct unkeyed hq
  have bound : i < (p.drafts [] p.placeholders).length := by
    have := (List.getElem?_eq_some_iff.mp hq).1
    rwa [← map_path_drafts plan groupIds, List.length_map] at this
  -- the proposals shorten the path, so no link is refused
  have links : p.links [] i = (p.filled []).proposal p.dialect p.groups i := by
    refine links_of_rank o.drafted (fun i => (((treePaths p.groups)[i]?).getD []).length) ?_ bound
    intro i j hij
    have bound := Batch.lt_size_of_proposal hij
    rw [Batch.size, (filled_legacy plan distinct).1] at bound
    have hi : (treePaths p.groups)[i]? = some ((p.drafts [] p.placeholders)[i]).path := by
      rw [← map_path_drafts plan groupIds, List.getElem?_map, List.getElem?_eq_getElem bound]
      rfl
    obtain ⟨long, hj⟩ := (proposed hi).mp hij
    rw [hi, hj, Option.getD_some, Option.getD_some, List.length_dropLast]
    omega
  rw [links]
  exact proposed hq

/-- The node at a position of the tree, in terms of its entry. -/
theorem Outcome.made_legacy (legacy : ∀ r ∈ rs, r.IsLegacy)
    (unkeyed : ∀ row ∈ rs, row.parentXrefKey = none) {k : Nat} {m : Node}
    (hm : made[k]? = some m) :
    (treePaths p.groups)[k]? = some m.levelPath ∧ m.name = m.levelPath.getLast?.getD "" ∧
      (Dict.get? Node.placeholderKey m.metadata = some (.bool true) ↔
        m.levelPath ∉ rs.map (rowPath w)) ∧
      m.isRoot = m.parentId.isNone ∧
      (∀ id, m.parentId = some id ↔ 1 < m.levelPath.length ∧
        ∃ j : Nat, (treePaths p.groups)[j]? = some m.levelPath.dropLast ∧ ids[j]? = some id) := by
  have groupIds := (List.nodup_append.mp distinct).1
  obtain ⟨e, id, he, -, eq⟩ := o.made_at hm
  obtain ⟨path, name, mark, -⟩ := draft_legacy plan legacy groupIds (List.mem_of_getElem? he)
  have levelPath : m.outline.levelPath = e.path := by rw [eq]; exact path
  have here : (treePaths p.groups)[k]? = some e.path := by
    rw [← map_path_drafts plan groupIds, List.getElem?_map, he, Option.map_some]
  have parent : m.outline.parentId = (p.links [] k).bind (ids[·]?) := by rw [eq]; rfl
  have nameEq : m.outline.name = e.path.getLast?.getD "" := by rw [eq]; exact name
  have metadata : m.outline.metadata = Value.keptFields e.node.metadata := by rw [eq]; rfl
  have root : m.outline.isRoot = m.outline.parentId.isNone := by rw [eq]; rfl
  change m.levelPath = _ at levelPath
  rw [levelPath]
  refine ⟨here, nameEq, ?_, root, fun id => ?_⟩
  · rw [show m.metadata = _ from metadata]
    exact mark
  · rw [show m.parentId = _ from parent, Option.bind_eq_some_iff]
    simp only [o.links_legacy plan distinct unkeyed here, and_assoc, exists_and_left]

theorem Outcome.map_levelPath_legacy (legacy : ∀ r ∈ rs, r.IsLegacy)
    (unkeyed : ∀ row ∈ rs, row.parentXrefKey = none) :
    made.map (·.levelPath) = treePaths p.groups := by
  have length : made.length = (treePaths p.groups).length := by
    rw [o.length_made, ← map_path_drafts plan (List.nodup_append.mp distinct).1, List.length_map]
  refine List.ext_getElem? fun k => ?_
  rw [List.getElem?_map]
  cases hm : made[k]? with
  | none =>
    rw [List.getElem?_eq_none_iff, length] at hm
    rw [List.getElem?_eq_none_iff.mpr hm]
    rfl
  | some m => rw [(o.made_legacy plan distinct legacy unkeyed hm).1, Option.map_some]

/-- The stored nodes form the tree. -/
theorem Outcome.isPrefixTree (legacy : ∀ r ∈ rs, r.IsLegacy)
    (unkeyed : ∀ row ∈ rs, row.parentXrefKey = none) :
    IsPrefixTree (rs.map (rowPath w)) made := by
  have paths := o.map_levelPath_legacy plan distinct legacy unkeyed
  have node : ∀ n ∈ made, ∃ k, made[k]? = some n := fun n hn => List.getElem?_of_mem hn
  have nonempty : ∀ n ∈ made, n.levelPath ≠ [] := by
    intro n hn
    refine path_ne_nil_of_mem_treePaths plan ?_
    rw [← paths]
    exact List.mem_map_of_mem hn
  have linked : ∀ n ∈ made, 1 < n.levelPath.length →
      ∃ m ∈ made, m.levelPath = n.levelPath.dropLast ∧ n.parentId = some m.id := by
    intro n hn long
    obtain ⟨k, hk⟩ := node n hn
    obtain ⟨-, -, -, -, parent⟩ := o.made_legacy plan distinct legacy unkeyed hk
    have mem : n.levelPath.dropLast ∈ made.map (·.levelPath) := by
      have own : n.levelPath ∈ made.map (·.levelPath) := List.mem_map_of_mem hn
      rw [paths, groups_legacy plan] at own ⊢
      exact dropLast_mem_treePaths own long
    obtain ⟨m, hm, same⟩ := List.mem_map.mp mem
    obtain ⟨j, hj⟩ := node m hm
    refine ⟨m, hm, same, (parent m.id).mpr ⟨long, j, ?_, ?_⟩⟩
    · rw [← paths, List.getElem?_map, hj, Option.map_some, same]
    · rw [← o.map_id, List.getElem?_map, hj, Option.map_some]
  have unlinked : ∀ n ∈ made, n.levelPath.length = 1 → n.parentId = none := by
    intro n hn short
    obtain ⟨k, hk⟩ := node n hn
    obtain ⟨-, -, -, -, parent⟩ := o.made_legacy plan distinct legacy unkeyed hk
    refine Option.eq_none_iff_forall_ne_some.mpr fun id hid => ?_
    have := ((parent id).mp hid).1
    omega
  refine ⟨?_, ?_, ?_, linked, unlinked, ?_, ?_⟩
  · rw [paths, groups_legacy plan]
    exact nodup_treePaths w rs
  · intro q
    rw [paths, groups_legacy plan, mem_treePaths]
    simp only [List.mem_map, exists_exists_and_eq_and]
  · intro n hn
    obtain ⟨k, hk⟩ := node n hn
    obtain ⟨-, name, -, -, -⟩ := o.made_legacy plan distinct legacy unkeyed hk
    obtain ⟨last, hlast⟩ := Option.ne_none_iff_exists'.mp
      (mt List.getLast?_eq_none_iff.mp (nonempty n hn))
    rw [name, hlast, Option.getD_some]
  · intro n hn
    obtain ⟨k, hk⟩ := node n hn
    obtain ⟨-, -, -, root, -⟩ := o.made_legacy plan distinct legacy unkeyed hk
    have positive := List.length_pos_iff.mpr (nonempty n hn)
    rw [root, Option.isNone_iff_eq_none]
    refine ⟨fun isTop => ?_, unlinked n hn⟩
    by_contra long
    obtain ⟨m, -, -, below⟩ := linked n hn (by omega)
    rw [isTop] at below
    cases below
  · intro n hn
    obtain ⟨k, hk⟩ := node n hn
    obtain ⟨-, -, mark, -, -⟩ := o.made_legacy plan distinct legacy unkeyed hk
    exact mark

/-- The placeholders are the nodes whose path is no row's. -/
theorem Outcome.countP_legacy (legacy : ∀ r ∈ rs, r.IsLegacy)
    (unkeyed : ∀ row ∈ rs, row.parentXrefKey = none) :
    made.countP (fun n => n.levelPath ∉ rs.map (rowPath w)) = p.placeholders.length := by
  have groupIds := (List.nodup_append.mp distinct).1
  calc made.countP (fun n => n.levelPath ∉ rs.map (rowPath w))
      = (made.map (·.levelPath)).countP (fun q => q ∉ rs.map (rowPath w)) := by
        rw [List.countP_map]
        rfl
    _ = (p.drafts [] p.placeholders).countP (fun e => e.path ∉ rs.map (rowPath w)) := by
        rw [o.map_levelPath_legacy plan distinct legacy unkeyed, ← map_path_drafts plan groupIds,
          List.countP_map]
        rfl
    _ = (p.drafts [] p.placeholders).countP (·.origin == .synthesized) := by
        refine List.countP_congr fun e he => ?_
        rw [decide_eq_true_eq, beq_iff_eq]
        exact (draft_legacy plan legacy groupIds he).2.2.2.symm
    _ = p.placeholders.length := (p.countP_drafts [] p.placeholders).2

end Made

end Legacy

end ImportPlan

namespace Import

open RowGroup.Legacy

/-- Legacy rows that name no parent keys, imported into an empty project, store the tree of the
    leading parts of their paths, if the hierarchy ids of groups and placeholders are distinct. The
    summary counts the leading parts that are no row's path. -/
theorem rows_prefixTree (s : Store) (project : String) (w : Window) (marks : Bool)
    (rs : List HierarchyRow) (known : s.hasProject project = true)
    (ids : (s.nodes.map (·.id)).Nodup) (empty : s.nodesOf project = [])
    (legacy : ∀ r ∈ rs, r.IsLegacy) (unkeyed : ∀ r ∈ rs, r.parentXrefKey = none)
    (distinct : ((group w rs).1.map (·.hierarchyId) ++
      (missingAncestors (group w rs).1).map (·.hierarchyId)).Nodup) :
    let done := rows .permissive s project .legacy w marks rs
    IsPrefixTree (rs.map (rowPath w)) (done.1.nodesOf project) ∧
      done.2.synthesized =
        (done.1.nodesOf project).countP fun n => n.levelPath ∉ rs.map (rowPath w) := by
  obtain ⟨added, ids', made, warnings, o, -, eq⟩ := rows_outcome s project .legacy w marks rs known
    ids (by rw [empty]; simp) (by rw [empty]; exact List.nodup_nil)
  rw [empty] at o
  obtain rfl := ImportPlan.Outcome.added_eq rfl distinct o
  have inProject : ∀ m ∈ made, m.projectId = project := by
    intro m hm
    obtain ⟨k, hk⟩ := List.getElem?_of_mem hm
    obtain ⟨e, id, he, -, same⟩ := o.made_at hk
    have : m.outline.projectId = e.node.projectId := by rw [same]; rfl
    exact this.trans (o.drafted.drafts e (List.mem_of_getElem? he)).inProject
  have nodes : (rows .permissive s project .legacy w marks rs).1.nodesOf project = made := by
    rw [eq, Store.nodesOf_append rfl inProject, empty, if_pos rfl, List.nil_append]
  dsimp only
  rw [nodes, eq]
  exact ⟨o.isPrefixTree rfl distinct legacy unkeyed,
    (o.countP_legacy rfl distinct legacy unkeyed).symm⟩

theorem isLegacy_readRows (t : Table) : ∀ r ∈ readRows t .legacy, r.IsLegacy := by
  intro r hr
  obtain ⟨row, -, read⟩ := read_of_mem_readRows hr
  exact ⟨t, _, row, read⟩

/-- Two rows that need a common ancestor, and one for an ancestor above it. -/
def gapTable : Table :=
  { headers := ["LEVEL_2", "LEVEL_3", "LEVEL_4"]
    columns := ["LEVEL_2", "LEVEL_3", "LEVEL_4"]
    rows := [⟨1, ["A", "B", "C"]⟩, ⟨2, ["A", "B", "D"]⟩, ⟨3, ["A", "", ""]⟩]
    problems := [] }

theorem rows_prefixTree_gapTable :
    let done := rows .permissive { projects := [⟨"P", "P"⟩] } "P" .legacy Window.legacy false
      (readRows gapTable .legacy)
    IsPrefixTree [["A", "B", "C"], ["A", "B", "D"], ["A"]] (done.1.nodesOf "P") ∧
      done.2.synthesized = 1 ∧ (done.1.nodesOf "P").map (·.levelPath) =
        [["A", "B", "C"], ["A", "B", "D"], ["A"], ["A", "B"]] := by
  have tree := rows_prefixTree { projects := [⟨"P", "P"⟩] } "P" Window.legacy false
    (readRows gapTable .legacy) (by decide +kernel) (by decide) rfl (isLegacy_readRows gapTable)
    (by decide +kernel) (by decide +kernel)
  have paths : (readRows gapTable .legacy).map (rowPath Window.legacy) =
      [["A", "B", "C"], ["A", "B", "D"], ["A"]] := by decide +kernel
  refine ⟨?_, by decide +kernel, by decide +kernel⟩
  rw [← paths]
  exact tree.1

end Import

end Rollup

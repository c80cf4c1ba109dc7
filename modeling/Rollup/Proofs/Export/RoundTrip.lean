import Mathlib.Data.List.Basic
import Rollup.Proofs.Export.Plan

/-!
# Importing an export

The text of an export, imported into an empty project, gives a copy of the exported forest: one node
for each exported node, below the copy of its parent.

Results:

* `exists_outcome`: the store and the summary after the import.
* `made_at`: the node that is stored for an exported node.
* `isCopy_made`: it is a copy.
* `table_hierarchy`: the round trip as a whole.
-/

namespace Rollup

namespace Export

/-! ## The outcome of the import -/

section Outcome

variable {nodes : List Node} (h : Exportable nodes) {options : ExportOptions}
  (fits : KeysFit nodes options) (w : Window) {s : Store}
  {project : String} (known : s.hasProject project = true) (empty : s.nodesOf project = [])
  (ids : (s.nodes.map (·.id)).Nodup)

include h fits known empty ids

/-- The store and the summary after an import of an export into an empty project. -/
theorem exists_outcome : ∃ ids made warnings,
    (plan nodes options w project).Outcome [] true [] ids made ∧
    ({ s with nodes := s.nodes ++ made } : Store).nodesOf project = made ∧
    Import.table .permissive s project .standard w (Table.written
        (Sheet.ofNodes nodes options).layout ((Sheet.ofNodes nodes options).records options)) =
      .ok ({ s with nodes := s.nodes ++ made },
        { imported := (Sheet.ofNodes nodes options).written.length, warnings := warnings }) := by
  set rows := Import.readRows (Table.written (Sheet.ofNodes nodes options).layout
    ((Sheet.ofNodes nodes options).records options)) .standard with hrows
  obtain ⟨added, ids', made, warnings, outcome, -, run⟩ := Import.rows_outcome s project .standard w
    true rows known ids (by rw [empty]; simp) (by rw [empty]; exact List.nodup_nil)
  have marks : (Table.written (Sheet.ofNodes nodes options).layout
      ((Sheet.ofNodes nodes options).records options)).hasColumn Column.isLeafNode = true :=
    Table.hasColumn_written.mpr (fixed_mem_header options (by simp [Column.fixed, Column.place]))
  have ofRows := ofRows_readRows w project h fits
  have errors : (Dialect.standard.group w rows).2 = [] :=
    congrArg Prod.snd (group_readRows h fits w)
  rw [ofRows, empty] at outcome run
  obtain rfl : added = [] := List.sublist_nil.mp outcome.sublist
  refine ⟨ids', made, warnings, outcome, ?_, ?_⟩
  · have inside : made.filter (·.projectId == project) = made := by
      rw [List.filter_eq_self]
      intro m hm
      obtain ⟨k, hk⟩ := List.getElem?_of_mem hm
      obtain ⟨e, id, he, -, eq⟩ := outcome.made_at hk
      have same : m.outline.projectId = e.node.projectId := by rw [eq]; rfl
      have draft := outcome.drafted.drafts e (List.mem_of_getElem? he)
      rw [beq_iff_eq]
      exact same.trans draft.inProject
    have before : s.nodes.filter (·.projectId == project) = [] := empty
    rw [Store.nodesOf, List.filter_append, before, inside, List.nil_append]
  · have new := ImportPlan.newGroups_of_distinct (p := plan nodes options w project)
      (nodup_hierarchyId_groups h.legible w)
    have repeats := ImportPlan.repeats_of_distinct (p := plan nodes options w project)
      (nodup_hierarchyId_groups h.legible w)
    rw [Import.table_eq known, marks, ← hrows, run, errors, readErrors_written h fits, new, repeats,
      ImportPlan.existing_empty]
    have count : (plan nodes options w project).groups.zipIdx.length =
        (Sheet.ofNodes nodes options).written.length := by
      rw [List.length_zipIdx]
      exact length_groups w
    simp [Summary.merge, count]

end Outcome

section Made

variable {nodes : List Node} (h : Exportable nodes) {options : ExportOptions} {w : Window}
  {project : String} {ids : List String} {made : List Node}
  (outcome : (plan nodes options w project).Outcome [] true [] ids made)

include h outcome

theorem length_made : made.length = nodes.length := by
  have written : (Sheet.ofNodes nodes options).written.length = nodes.length := by
    have perm := Forest.perm_exportOrder (Forest.length_parents_ofNodes nodes)
    have nodup := nodup_written nodes options
    have all : ((Sheet.ofNodes nodes options).written.map (·.1)).Perm
        (List.range nodes.length) := by
      refine (List.perm_ext_iff_of_nodup nodup List.nodup_range).mpr fun i => ?_
      rw [List.mem_map, List.mem_range]
      constructor
      · rintro ⟨q, hq, rfl⟩
        exact (List.getElem?_eq_some_iff.mp ((mem_written h options).mp hq)).1
      · intro bound
        exact ⟨(i, nodes[i]), (mem_written h options).mpr (List.getElem?_eq_getElem bound), rfl⟩
    simpa using all.length_eq
  rw [outcome.length_made, drafts_plan h, List.length_map, List.length_zipIdx, length_groups,
    written]

/-- The node that is stored for an exported node. -/
theorem made_at {k : Nat} {q : Nat × Node}
    (hq : (Sheet.ofNodes nodes options).written[k]? = some q) :
    ∃ m id number before, made[k]? = some m ∧ ids[k]? = some id ∧
      before + extraRows q.2 ≤ (Sheet.ofNodes nodes options).furtherRows ∧
      ((Sheet.ofNodes nodes options).groups w options)[k]? =
        some ((Sheet.ofNodes nodes options).group w number
          ((Sheet.ofNodes nodes options).keysFrom options before) q).led ∧
      m.outline = ((Sheet.ofNodes nodes options).planned w project number
          ((Sheet.ofNodes nodes options).keysFrom options before) q).storedAs id
        (((plan nodes options w project).links [] k).bind (ids[·]?))
        (q.2.flags.leaf && !((Forest.ofNodes nodes).children q.1).any (· ≠ q.1)) := by
  obtain ⟨number, before, most, hg⟩ := getElem?_groups w hq
  have here := (mem_written h options).mp (List.mem_of_getElem? hq)
  have bound : k < made.length := by
    rw [outcome.length_made, drafts_plan h, List.length_map, List.length_zipIdx]
    exact (List.getElem?_eq_some_iff.mp hg).1
  have hm := List.getElem?_eq_getElem bound
  obtain ⟨e, id, he, hid, eq⟩ := outcome.made_at hm
  rw [drafts_plan h, List.getElem?_map, List.getElem?_zipIdx, hg] at he
  obtain rfl : e = Assembly.groupEntry project (((Sheet.ofNodes nodes options).group w number
      ((Sheet.ofNodes nodes options).keysFrom options before) q).led, k) := by
    simpa using he.symm
  refine ⟨_, id, number, before, hm, hid, most, hg, ?_⟩
  rw [eq, Assembly.groupEntry, node_group h here]
  rfl

/-- The parent of a stored node is the one stored for the parent of the exported node. -/
theorem parentId_made (fits : KeysFit nodes options) {k : Nat} {q : Nat × Node}
    (hq : (Sheet.ofNodes nodes options).written[k]? = some q) {m : Node}
    (hm : made[k]? = some m) :
    (Forest.ofNodes nodes).parent? q.1 = none ∧ m.parentId = none ∨
      ∃ (j : Nat) (r : Nat × Node) (m' : Node), (Forest.ofNodes nodes).parent? q.1 = some r.1 ∧
        (Sheet.ofNodes nodes options).written[j]? = some r ∧ made[j]? = some m' ∧
        m.parentId = some m'.id := by
  obtain ⟨m₀, id, number, before, hm₀, -, -, -, eq⟩ := made_at h outcome hq
  obtain rfl : m₀ = m := Option.some.inj (hm₀.symm.trans hm)
  have parent : m₀.parentId = ((plan nodes options w project).links [] k).bind (ids[·]?) := by
    change m₀.outline.parentId = _
    rw [eq, Node.storedAs]
  rw [links_plan h w project fits hq] at parent
  cases link : (Forest.ofNodes nodes).parent? q.1 with
  | none =>
    rw [proposal_root h w project hq link] at parent
    exact Or.inl ⟨rfl, parent⟩
  | some p =>
    obtain ⟨j, r, hr⟩ := exists_written_parent h options link
    obtain ⟨m', id', number', before', hm', hid', -, -, eq'⟩ := made_at h outcome hr
    have named : m'.id = id' := by
      change m'.outline.id = _
      rw [eq']
      rfl
    rw [proposal_child h w project hq fits hr link, Option.bind_some, hid', ← named] at parent
    exact Or.inr ⟨j, (p, r), m', rfl, hr, hm', parent⟩

end Made

/-! ## Copies -/

/-- The hierarchy id of the parent of a node of a list. -/
def parentHierarchyId (nodes : List Node) (n : Node) : Option String :=
  n.parentId.bind fun id => (nodes.find? (·.id == id)).map (·.hierarchyId)

/-- A node of one list is the copy of a node of another. Only the leaf mark and the custom flags
    depend on the other nodes: a node with children is no leaf, and every flag of the list is set on
    every copy. -/
structure IsCopy (nodes copies : List Node) (n m : Node) : Prop where
  hierarchyId : m.hierarchyId = n.hierarchyId
  name : m.name = n.name
  description : m.description = n.description
  sortOrder : m.sortOrder = n.sortOrder
  isRoot : m.isRoot = n.isRoot
  parent : parentHierarchyId copies m = parentHierarchyId nodes n
  filterGroups : m.filterGroups = n.filterGroups
  flags : m.flags = { n.flags with
    leaf := n.flags.leaf && !nodes.any (·.parentId == some n.id) }
  customFlags : ∀ k, Dict.get? k m.customFlags = (Dict.get? k n.customFlags).or
    (if ∃ n' ∈ nodes, k ∈ Dict.keys n'.customFlags then some false else none)

section Copies

variable {nodes : List Node} (h : Exportable nodes)

include h

theorem any_children {i : Nat} {n : Node} (here : nodes[i]? = some n) :
    ((Forest.ofNodes nodes).children i).any (· ≠ i) = nodes.any (·.parentId == some n.id) :=
  Forest.any_children h.ids here fun own => h.acyclic_positions i (Relation.TransGen.single own)

theorem get?_copied (options : ExportOptions) {n : Node} (hn : n ∈ nodes) (k : String) :
    Dict.get? k ((Sheet.ofNodes nodes options).customFlags.map fun flag =>
        (flag, (Dict.get? flag n.customFlags).getD false)) =
      (Dict.get? k n.customFlags).or
        (if ∃ n' ∈ nodes, k ∈ Dict.keys n'.customFlags then some false else none) := by
  have flags : k ∈ (Sheet.ofNodes nodes options).customFlags ↔
      ∃ n' ∈ nodes, k ∈ Dict.keys n'.customFlags := by
    rw [customFlags_eq h, Dict.mem_sortedDistinct, List.mem_flatMap]
  have entries := lookup_filterMap (Sheet.ofNodes nodes options).customFlags
    (fun flag => some ((Dict.get? flag n.customFlags).getD false)) k
  simp only [Option.map_some, List.filterMap_eq_map'] at entries
  rw [Dict.get?_eq_lookup, entries]
  by_cases mem : k ∈ (Sheet.ofNodes nodes options).customFlags
  · rw [if_pos (by simpa using mem), if_pos (flags.mp mem)]
    cases Dict.get? k n.customFlags <;> rfl
  · rw [if_neg (by simpa using mem), if_neg fun some => mem (flags.mpr some), Option.or_none,
      eq_comm, Dict.get?_eq_none_iff]
    exact fun known => mem (flags.mpr ⟨n, hn, known⟩)

variable {options : ExportOptions} {w : Window} {project : String} {ids : List String}
  {made : List Node} (outcome : (plan nodes options w project).Outcome [] true [] ids made)

include outcome

omit h in
theorem nodup_id_made : (made.map (·.id)).Nodup := by
  rw [outcome.map_id]
  exact outcome.nodup

theorem nodup_hierarchyId_made : (made.map (·.hierarchyId)).Nodup := by
  rw [outcome.map_hierarchyId, drafts_plan h, List.map_map]
  have ids : (((Sheet.ofNodes nodes options).groups w options).map (·.hierarchyId)).Nodup :=
    nodup_hierarchyId_groups h.legible w
  rw [← map_zipIdx_fst] at ids
  exact ids

/-- The node that is stored for an exported node is a copy of it. -/
theorem isCopy_made (fits : KeysFit nodes options) {k : Nat} {q : Nat × Node}
    (hq : (Sheet.ofNodes nodes options).written[k]? = some q) {m : Node}
    (hm : made[k]? = some m) : IsCopy nodes made q.2 m := by
  have here := (mem_written h options).mp (List.mem_of_getElem? hq)
  have mem := List.mem_of_getElem? here
  have parent := parentId_made h outcome fits hq hm
  obtain ⟨m₀, id, number, before, hm₀, -, -, -, eq⟩ := made_at h outcome hq
  obtain rfl : m₀ = m := Option.some.inj (hm₀.symm.trans hm)
  have outlines : ∀ {α : Type} (f : Node → α), (∀ n : Node, f n.outline = f n) →
      f m₀ = f (((Sheet.ofNodes nodes options).planned w project number
          ((Sheet.ofNodes nodes options).keysFrom options before) q).storedAs id
        (((plan nodes options w project).links [] k).bind (ids[·]?))
        (q.2.flags.leaf && !((Forest.ofNodes nodes).children q.1).any (· ≠ q.1))) := by
    intro α f stays
    rw [← stays m₀, eq]
  have isRoot : m₀.isRoot = m₀.parentId.isNone := by
    rw [outlines (·.isRoot) fun _ => rfl, outlines (·.parentId) fun _ => rfl, Node.storedAs]
  refine ⟨outlines (·.hierarchyId) fun _ => rfl, outlines (·.name) fun _ => rfl,
    outlines (·.description) fun _ => rfl, outlines (·.sortOrder) fun _ => rfl, ?_, ?_, ?_, ?_, ?_⟩
  · rw [isRoot, h.roots q.2 mem]
    rcases parent with ⟨root, none⟩ | ⟨j, r, m', link, -, -, some⟩
    · rw [none, h.parentId_of_root here root]
    · obtain ⟨n, m, hn, -, link⟩ := Forest.link_ofNodes link
      rw [here] at hn
      cases hn
      rw [some, link]
      rfl
  · rcases parent with ⟨root, none⟩ | ⟨j, r, m', link, hr, hm', some⟩
    · rw [parentHierarchyId, parentHierarchyId, none, h.parentId_of_root here root]
      rfl
    · obtain ⟨n, p, hn, hp, link⟩ := Forest.link_ofNodes link
      rw [here] at hn
      cases hn
      have there := (mem_written h options).mp (List.mem_of_getElem? hr)
      rw [there] at hp
      cases hp
      obtain ⟨m₁, id₁, _, _, hm₁, -, -, -, eq₁⟩ := made_at h outcome hr
      obtain rfl : m₁ = m' := Option.some.inj (hm₁.symm.trans hm')
      have sameId : m₁.hierarchyId = r.2.hierarchyId := by
        change m₁.outline.hierarchyId = _
        rw [eq₁]
        rfl
      rw [parentHierarchyId, parentHierarchyId, some, link, Option.bind_some, Option.bind_some,
        find?_of_nodup (f := fun n : Node => n.id) (nodup_id_made outcome) hm',
        find?_of_nodup (f := fun n : Node => n.id) h.ids there, Option.map_some, Option.map_some,
        sameId]
  · have groups := outlines (·.filterGroups) fun _ => rfl
    rw [groups]
    change ((if q.2.filterGroups.isEmpty then none else some { groups := q.2.filterGroups } :
      Option Filter).map (·.groups)).getD [] = q.2.filterGroups
    cases entries : q.2.filterGroups <;> rfl
  · rw [outlines (·.flags) fun _ => rfl, any_children h here]
    rfl
  · intro k
    rw [outlines (·.customFlags) fun _ => rfl]
    exact get?_copied h options mem k

end Copies

/-! ## The round trip -/

/-- An export can be written and read back, and importing it into an empty project gives a copy of
    the exported forest: no error, one node for each exported node, and no other. This holds wherever
    the keys of further rows start, also where their counter wraps around. -/
theorem table_hierarchy {nodes : List Node} (h : Exportable nodes) (size : nodes.length < 2 ^ 63)
    (options : ExportOptions) (start : Literal.inRange options.syntheticXrefStart = true)
    (w : Window) {s : Store} {project : String} (known : s.hasProject project = true)
    (empty : s.nodesOf project = []) (ids : (s.nodes.map (·.id)).Nodup) :
    (∀ record ∈ (Sheet.ofNodes nodes options).records options,
      record.length = (Sheet.ofNodes nodes options).layout.header.length) ∧
    ∃ t s' summary, Table.ofText (hierarchy nodes options) = .ok t ∧
      Import.table .permissive s project .standard w t = .ok (s', summary) ∧
      summary.errors = [] ∧ summary.imported = nodes.length ∧ summary.skipped = 0 ∧
      (s'.nodesOf project).length = nodes.length ∧
      ∀ n ∈ nodes, ∃ m ∈ s'.nodesOf project, IsCopy nodes (s'.nodesOf project) n m ∧
        ∀ m' ∈ s'.nodesOf project, m'.hierarchyId = n.hierarchyId → m' = m := by
  have fits := keysFit_of_size options h.legible start size
  refine ⟨fun record mem => (fits_records h.legible fits mem).width, ?_⟩
  obtain ⟨ids', made, warnings, outcome, stored, run⟩ :=
    exists_outcome h fits w known empty ids
  refine ⟨_, _, _, ofText_hierarchy h.legible fits, run, rfl, ?_, rfl, ?_, ?_⟩
  · have length := length_made h outcome
    rw [outcome.length_made, drafts_plan h, List.length_map, List.length_zipIdx,
      length_groups] at length
    exact length
  · rw [stored, length_made h outcome]
  · intro n hn
    rw [stored]
    obtain ⟨i, here⟩ := List.getElem?_of_mem hn
    obtain ⟨k, hq⟩ := List.getElem?_of_mem ((mem_written h options).mpr here)
    obtain ⟨m, id, number, before, hm, -⟩ := made_at h outcome hq
    have copy := isCopy_made h outcome fits hq hm
    refine ⟨m, List.mem_of_getElem? hm, copy, fun m' hm' same => ?_⟩
    exact List.inj_on_of_nodup_map (nodup_hierarchyId_made h outcome) hm'
      (List.mem_of_getElem? hm) (same.trans copy.hierarchyId.symm)

theorem table_hierarchy_twoNodes : ∃ t s' summary,
    Table.ofText (hierarchy twoNodes {}) = .ok t ∧
      Import.table .permissive { projects := [⟨"B", "B"⟩] } "B" .standard .standard t =
        .ok (s', summary) ∧
      summary.errors = [] ∧ summary.imported = 2 ∧
      ∃ m ∈ s'.nodesOf "B", m.hierarchyId = "GROSS" ∧ m.description = some "before tax" ∧
        parentHierarchyId (s'.nodesOf "B") m = some "NET" ∧ m.flags.leaf = true ∧
        Dict.get? "LOCAL" m.customFlags = some true ∧
        Dict.get? "AUDITED" m.customFlags = some false := by
  obtain ⟨-, t, s', summary, read, run, errors, imported, -, -, copies⟩ :=
    table_hierarchy exportable_twoNodes (by decide) {} (by decide) .standard
      (show Store.hasProject { projects := [⟨"B", "B"⟩] } "B" = true from rfl) rfl List.nodup_nil
  obtain ⟨m, mem, copy, -⟩ := copies _ (List.mem_of_getElem? (i := 1) rfl)
  refine ⟨t, s', summary, read, run, errors, imported, m, mem, copy.hierarchyId, copy.description,
    copy.parent.trans (by decide +kernel), ?_, ?_, ?_⟩
  · rw [copy.flags]
    decide +kernel
  · rw [copy.customFlags]
    decide +kernel
  · rw [copy.customFlags]
    decide +kernel

end Export

end Rollup

import Mathlib.Data.List.Basic
import Rollup.Proofs.Export.Groups
import Rollup.Proofs.Import.EmptyProject
import Rollup.Proofs.RowGroup.Build

/-!
# The plan of an import of an export

An import of an export into an empty project plans one node for each exported node, in the order of
the export, and links it to the node that is planned for its parent.

Results:

* `node_group`: the node that is planned for an exported node.
* `ofRows_readRows`: the plan.
* `proposal_root`, `proposal_child`, `links_plan`: the links.
-/

namespace Rollup

namespace Export

/-! ## Nodes -/

/-- The node that the group of an exported node becomes. -/
def Sheet.planned (s : Sheet) (w : Window) (project : String) (number : Nat) (key : Nat → Int)
    (q : Nat × Node) : Node where
  hierarchyId := q.2.hierarchyId
  projectId := project
  name := q.2.name
  description := q.2.description
  levelPath := (s.group w number key q).path
  levelSorts := (s.group w number key q).pathSorts
  sortOrder := q.2.sortOrder
  flags := { q.2.flags with
    leaf := q.2.flags.leaf && !(s.forest.children q.1).any (· ≠ q.1) }
  customFlags := s.customFlags.map fun flag => (flag, (Dict.get? flag q.2.customFlags).getD false)
  formula := (s.group w number key q).led.formula?
  filter := if q.2.filterGroups.isEmpty then none else some { groups := q.2.filterGroups }
  xrefKey := (s.group w number key q).led.leader.xrefKey

theorem node_group {nodes : List Node} (h : Exportable nodes) {options : ExportOptions}
    {q : Nat × Node} (here : nodes[q.1]? = some q.2) (w : Window) (project : String) (number : Nat)
    (key : Nat → Int) :
    ((Sheet.ofNodes nodes options).group w number key q).led.node project =
      (Sheet.ofNodes nodes options).planned w project number key q := by
  set s := Sheet.ofNodes nodes options with hs
  set g := (s.group w number key q).led with hg
  have node := h.node q.2 (List.mem_of_getElem? here)
  -- every row of the group says the same of the node
  have agree : ∀ {α : Type} {pick : HierarchyRow → α} {a : α},
      (∀ k key cells, pick (s.row k ⟨q.1, q.2, key, cells⟩) = a) →
      ∀ row ∈ g.rows, pick row = a := by
    intro α pick a same row hrow
    obtain ⟨k, key, cells, rfl⟩ := s.mem_rows_group w ((RowGroup.mem_rows_led _).mp hrow)
    exact same k key cells
  have description : g.firstOf (·.description) = q.2.description :=
    RowGroup.firstOf_of_agree (agree fun _ _ _ => rfl)
  have flags : g.mergedFlags = { q.2.flags with
      leaf := q.2.flags.leaf && !(s.forest.children q.1).any (· ≠ q.1) } := by
    have flag : ∀ {pick : HierarchyRow → Option Bool} {b : Bool},
        (∀ k key cells, pick (s.row k ⟨q.1, q.2, key, cells⟩) = some b) →
        ∀ default : Bool, (g.firstOf pick).getD default = b := by
      intro pick b same default
      rw [RowGroup.firstOf_of_agree (agree same), Option.getD_some]
    unfold RowGroup.mergedFlags
    dsimp only
    rw [flag (b := q.2.flags.included) fun _ _ _ => rfl,
      flag (b := q.2.flags.excluded) fun _ _ _ => rfl,
      flag (b := q.2.flags.transformed) fun _ _ _ => rfl,
      flag (b := q.2.flags.calculated) fun _ _ _ => rfl,
      flag (b := q.2.flags.active) fun _ _ _ => rfl,
      flag (b := q.2.flags.leaf && !(s.forest.children q.1).any (· ≠ q.1)) fun _ _ _ => rfl]
  have names : Dict.keys (s.customFlags.map fun flag =>
      (flag, (Dict.get? flag q.2.customFlags).getD false)) = s.customFlags := by
    rw [Dict.keys, List.map_map]
    exact List.map_id _
  have customFlags : g.mergedCustomFlags = s.customFlags.map fun flag =>
      (flag, (Dict.get? flag q.2.customFlags).getD false) := by
    refine RowGroup.mergedCustomFlags_of_agree ?_ ?_ (agree fun _ _ _ => rfl)
    · rw [Dict.Ordered, names]
      exact sorted_customFlags nodes options
    · rw [names]
      intro k hk
      have name := isName_of_mem_customFlags h.legible options hk
      exact ⟨name.kept, name.ne⟩
  have groups : RowGroup.firstEntries (g.rows.flatMap (·.filterGroups)) = q.2.filterGroups :=
    RowGroup.firstEntries_of_agree node.filterOrder (agree fun _ _ _ => rfl)
  have metadata : RowGroup.firstEntries (g.rows.flatMap (·.metadata)) = [] :=
    RowGroup.firstEntries_of_agree List.Pairwise.nil (agree fun _ _ _ => rfl)
  have mappings : g.mergedMappings = [] :=
    RowGroup.mergedMappings_of_none (agree fun _ _ _ => rfl)
  have sortOrder : g.leader.sortOrder = some q.2.sortOrder :=
    agree (fun _ _ _ => rfl) g.leader List.mem_cons_self
  unfold RowGroup.node
  dsimp only
  rw [description, flags, customFlags, groups, metadata, mappings, sortOrder, hg,
    RowGroup.hierarchyId_led, RowGroup.name_led, RowGroup.path_led, RowGroup.pathSorts_led]
  rfl

/-! ## The plan -/

/-- The plan of an import of an export into a project. -/
def plan (nodes : List Node) (options : ExportOptions) (w : Window) (project : String) :
    ImportPlan where
  project := project
  dialect := .standard
  groups := (Sheet.ofNodes nodes options).groups w options
  totals := (TotalPlan.plan ((Sheet.ofNodes nodes options).groups w options)).1
  placeholders := []

section Plan

variable {nodes : List Node} (h : Exportable nodes) {options : ExportOptions} (w : Window)
  (project : String)

theorem ofRows_readRows (h : Exportable nodes)
    (fits : KeysFit nodes options) :
    ImportPlan.ofRows project .standard w (Import.readRows (Table.written
        (Sheet.ofNodes nodes options).layout ((Sheet.ofNodes nodes options).records options))
        .standard) =
      (plan nodes options w project, { warnings :=
        (TotalPlan.plan ((Sheet.ofNodes nodes options).groups w options)).2 }) := by
  unfold ImportPlan.ofRows ImportPlan.ofRowsIn Dialect.group
  rw [group_readRows h fits w]
  rfl

theorem getElem?_groups {k : Nat} {q : Nat × Node}
    (hq : (Sheet.ofNodes nodes options).written[k]? = some q) :
    ∃ number before, before + extraRows q.2 ≤ (Sheet.ofNodes nodes options).furtherRows ∧
      ((Sheet.ofNodes nodes options).groups w options)[k]? =
        some ((Sheet.ofNodes nodes options).group w number
          ((Sheet.ofNodes nodes options).keysFrom options before) q).led := by
  obtain ⟨number, before, -, most, found⟩ :=
    (Sheet.ofNodes nodes options).getElem?_groupsFrom w _ 1
      ((Sheet.ofNodes nodes options).furtherKey options) hq
  refine ⟨number, before, most, ?_⟩
  rw [Sheet.groups, Sheet.fileGroups, List.getElem?_map, found]
  rfl

theorem length_groups : ((Sheet.ofNodes nodes options).groups w options).length =
    (Sheet.ofNodes nodes options).written.length := by
  rw [Sheet.groups, List.length_map, Sheet.fileGroups, Sheet.length_groupsFrom]

/-- Every group is that of a written node. -/
theorem exists_written {k : Nat} {g : RowGroup}
    (hg : ((Sheet.ofNodes nodes options).groups w options)[k]? = some g) :
    ∃ q number before, (Sheet.ofNodes nodes options).written[k]? = some q ∧
      before + extraRows q.2 ≤ (Sheet.ofNodes nodes options).furtherRows ∧
      g = ((Sheet.ofNodes nodes options).group w number
        ((Sheet.ofNodes nodes options).keysFrom options before) q).led := by
  have bound : k < (Sheet.ofNodes nodes options).written.length := by
    rw [← length_groups w]
    exact (List.getElem?_eq_some_iff.mp hg).1
  obtain ⟨number, before, most, found⟩ := getElem?_groups w (List.getElem?_eq_getElem bound)
  rw [hg, Option.some.injEq] at found
  exact ⟨_, number, before, List.getElem?_eq_getElem bound, most, found⟩

/-- The groups have the hierarchy ids of the written nodes. -/
theorem map_hierarchyId_groups : ((Sheet.ofNodes nodes options).groups w options).map
    (·.hierarchyId) = (Sheet.ofNodes nodes options).written.map (·.2.hierarchyId) := by
  rw [Sheet.groups, List.map_map]
  exact Sheet.map_groupsFrom _ w _ (fun _ _ _ _ => RowGroup.hierarchyId_led _) _ _

include h

theorem filled_plan : (plan nodes options w project).filled [] =
    { entries := ((Sheet.ofNodes nodes options).groups w options).zipIdx.map
        (Assembly.groupEntry project)
      fresh := {
        ids := ((Sheet.ofNodes nodes options).groups w options).zipIdx.map fun q =>
          (q.1.hierarchyId, q.2)
        xrefs := ((Sheet.ofNodes nodes options).groups w options).zipIdx.flatMap fun q =>
          q.1.xrefs.map fun x => (x, q.2)
        names := ((Sheet.ofNodes nodes options).groups w options).zipIdx.map fun q =>
          (q.1.name, q.2)
        paths := (((Sheet.ofNodes nodes options).groups w options).zipIdx.filter fun q =>
          q.1.path ≠ []).map fun q => (q.1.path, q.2) } } :=
  ImportPlan.grouped_of_distinct (p := plan nodes options w project) (nodup_hierarchyId_groups h.legible w)

theorem drafts_plan : (plan nodes options w project).drafts [] [] =
    ((Sheet.ofNodes nodes options).groups w options).zipIdx.map (Assembly.groupEntry project) := by
  have new := ImportPlan.newGroups_of_distinct (p := plan nodes options w project)
    (nodup_hierarchyId_groups h.legible w)
  rw [ImportPlan.drafts, new, List.map_nil, List.append_nil]
  rfl

/-- The key of the main row of a node leads to the position of the node. -/
theorem xref?_plan (fits : KeysFit nodes options) {j : Nat} {r : Nat × Node}
    (hr : (Sheet.ofNodes nodes options).written[j]? = some r) :
    ((plan nodes options w project).filled []).byXref?
      ((Sheet.ofNodes nodes options).mainFilling r).key = some j := by
  set s := Sheet.ofNodes nodes options with hs
  have key := mainFilling_key (List.mem_of_getElem? hr)
  have found : ((s.groups w options).zipIdx.flatMap fun q =>
      q.1.xrefs.map fun x => (x, q.2)).lookup (s.mainFilling r).key = some j := by
    refine lookup_of_unique ?_ ?_
    · obtain ⟨number, before, -, hg⟩ := getElem?_groups w hr
      refine List.mem_flatMap.mpr ⟨((s.group w number (s.keysFrom options before) r).led, j),
        List.mem_zipIdx_iff_getElem?.mpr hg, ?_⟩
      have main : s.row number (s.mainFilling r) ∈
          (s.group w number (s.keysFrom options before) r).led.rows :=
        (RowGroup.mem_rows_led _).mpr List.mem_cons_self
      exact List.mem_map.mpr ⟨_, List.mem_filterMap.mpr ⟨_, main, rfl⟩, rfl⟩
    · intro j' mem
      obtain ⟨⟨g, k⟩, hg, mem⟩ := List.mem_flatMap.mp mem
      obtain ⟨x, hx, eq⟩ := List.mem_map.mp mem
      obtain ⟨rfl, rfl⟩ := Prod.mk.inj eq
      obtain ⟨q, number, before, hq, most, rfl⟩ :=
        exists_written w (List.mem_zipIdx_iff_getElem?.mp hg)
      refine index_of_nodup_map (nodup_written nodes options) hq hr (key_unique options ?_ key)
      -- no further row has the key of a main row
      obtain ⟨row, hrow, hx⟩ := List.mem_filterMap.mp hx
      rw [RowGroup.mem_rows_led, Sheet.rows_group] at hrow
      obtain ⟨p, hp, rfl⟩ := List.mem_map.mp hrow
      have hx : p.1.key = (s.mainFilling r).key := Option.some.inj hx
      rcases List.mem_cons.mp (List.fst_mem_of_mem_zipIdx hp) with main | extra
      · rw [← hx, main]
        exact mainFilling_key (List.mem_of_getElem? hq)
      · obtain ⟨-, -, i, hi, same⟩ := Sheet.mem_extraFillings extra
        refine absurd (mem_mainKeys options key) ?_
        rw [← hx, same]
        exact fits.apart (before + i) (by omega)
  rw [Batch.byXref?, filled_plan h, KeyTable.xref?, found, Option.some_or]

section Proposal

variable {k : Nat} {q : Nat × Node} (hq : (Sheet.ofNodes nodes options).written[k]? = some q)

include hq

/-- What is proposed for a planned node. -/
theorem proposal_plan : ∃ path row, row.parentXrefKey = ((Forest.ofNodes nodes).parent? q.1).bind
      (fun j => (Sheet.ofNodes nodes options).keys.lookup j) ∧
    row.parentHierarchyId = ((Forest.ofNodes nodes).parent? q.1).bind
      (fun j => (nodes[j]?).map (·.hierarchyId)) ∧
    row.isRoot = some q.2.isRoot ∧
    ((plan nodes options w project).filled []).proposal .standard
        ((Sheet.ofNodes nodes options).groups w options) k =
      (((plan nodes options w project).filled []).standardParent k path (some row)).1 := by
  obtain ⟨number, before, -, hg⟩ := getElem?_groups w hq
  set g := ((Sheet.ofNodes nodes options).group w number
    ((Sheet.ofNodes nodes options).keysFrom options before) q).led with group_eq
  have entry : ((plan nodes options w project).filled []).entries[k]? =
      some (Assembly.groupEntry project (g, k)) := by
    rw [filled_plan h, List.getElem?_map, List.getElem?_zipIdx, hg]
    simp
  have leader : ((Assembly.groupEntry project (g, k)).group.bind
      (((Sheet.ofNodes nodes options).groups w options)[·]?)).map (·.leader) = some g.leader := by
    rw [Assembly.groupEntry, Option.bind_some, hg, Option.map_some]
  -- all rows of the group name the same parent
  obtain ⟨n, key, cells, row⟩ :=
    Sheet.mem_rows_group _ w (RowGroup.leader_led_mem ((Sheet.ofNodes nodes options).group w number
      ((Sheet.ofNodes nodes options).keysFrom options before) q))
  refine ⟨Assembly.groupEntry project (g, k), g.leader, ?_, ?_, ?_, ?_⟩
  · rw [group_eq, row]
    rfl
  · rw [group_eq, row]
    rfl
  · rw [group_eq, row]
    rfl
  · rw [Batch.proposal, entry, Option.bind_some, Batch.proposedParent, leader]

/-- A root is proposed no parent. -/
theorem proposal_root (root : (Forest.ofNodes nodes).parent? q.1 = none) :
    ((plan nodes options w project).filled []).proposal .standard
      ((Sheet.ofNodes nodes options).groups w options) k = none := by
  have here := (mem_written h options).mp (List.mem_of_getElem? hq)
  have isRoot : q.2.isRoot = true := by
    rw [h.roots q.2 (List.mem_of_getElem? here), h.parentId_of_root here root]
    rfl
  obtain ⟨path, row, xref, id, rootRow, eq⟩ := proposal_plan h w project hq
  rw [root, Option.bind_none] at xref id
  rw [eq, Batch.standardParent, Batch.byParentXref?, xref, Batch.byParentId?, id, rootRow, isRoot]
  rfl

/-- A child is proposed the node that is planned for its parent. -/
theorem proposal_child (fits : KeysFit nodes options) {j : Nat} {r : Nat × Node}
    (hr : (Sheet.ofNodes nodes options).written[j]? = some r)
    (link : (Forest.ofNodes nodes).parent? q.1 = some r.1) :
    ((plan nodes options w project).filled []).proposal .standard
      ((Sheet.ofNodes nodes options).groups w options) k = some j := by
  have apart : j ≠ k := by
    rintro rfl
    have self : q = r := Option.some.inj (hq.symm.trans hr)
    rw [← self] at link
    exact h.acyclic_positions q.1 (Relation.TransGen.single link)
  obtain ⟨path, row, xref, -, -, eq⟩ := proposal_plan h w project hq
  rw [link, Option.bind_some, mainFilling_key (List.mem_of_getElem? hr)] at xref
  have found : ((plan nodes options w project).filled []).byParentXref? k row = some j := by
    rw [Batch.byParentXref?, xref, Option.bind_some, xref?_plan h w project fits hr, Batch.except,
      Option.filter_some, if_pos (by simpa using apart)]
  rw [eq, Batch.standardParent]
  simp only [found]

end Proposal

/-- Every parent is written. -/
theorem exists_written_parent (options : ExportOptions) {i p : Nat} (link : (Forest.ofNodes nodes).parent? i = some p) :
    ∃ (j : Nat) (m : Node), (Sheet.ofNodes nodes options).written[j]? = some (p, m) := by
  obtain ⟨-, m, -, there, -⟩ := Forest.link_ofNodes link
  obtain ⟨j, hj⟩ := List.getElem?_of_mem ((mem_written h options).mpr there)
  exact ⟨j, m, hj⟩

/-- The proposals are the links. -/
theorem links_plan (fits : KeysFit nodes options) {k : Nat} {q : Nat × Node}
    (hq : (Sheet.ofNodes nodes options).written[k]? = some q) :
    (plan nodes options w project).links [] k =
      ((plan nodes options w project).filled []).proposal .standard
        ((Sheet.ofNodes nodes options).groups w options) k := by
  obtain ⟨added, sublist, drafted⟩ := (plan nodes options w project).drafted_filled
    (show (([] : List Node).map (·.hierarchyId)).Nodup from List.nodup_nil)
  obtain rfl : added = [] := List.sublist_nil.mp sublist
  -- the depth of the exported node is a rank
  refine ImportPlan.links_of_rank drafted
    (fun k => (((Sheet.ofNodes nodes options).written[k]?).map fun q =>
      (Forest.ofNodes nodes).depth q.1).getD 0) ?_ ?_
  · intro i p found
    have bound : i < (Sheet.ofNodes nodes options).written.length := by
      have := Batch.lt_size_of_proposal found
      rw [Batch.size, filled_plan h, List.length_map, List.length_zipIdx, length_groups] at this
      exact this
    have hi := List.getElem?_eq_getElem bound
    set q := (Sheet.ofNodes nodes options).written[i]
    cases link : (Forest.ofNodes nodes).parent? q.1 with
    | none =>
      have none : _ = some p := (proposal_root h w project hi link).symm.trans found
      cases none
    | some r =>
      obtain ⟨j, m, hj⟩ := exists_written_parent h options link
      obtain rfl : j = p :=
        Option.some.inj ((proposal_child h w project hi fits hj link).symm.trans found)
      rw [hj, hi]
      have there := (mem_written h options).mp (List.mem_of_getElem? hj)
      exact Forest.depth_lt_of_parent? h.acyclic_positions link
        (List.getElem?_eq_some_iff.mp there).1
  · have drafts : (plan nodes options w project).drafts [] [] = _ := drafts_plan h w project
    rw [ImportPlan.drafts] at drafts
    rw [ImportPlan.drafts, drafts, List.length_map, List.length_zipIdx, length_groups]
    exact (List.getElem?_eq_some_iff.mp hq).1

/-! ## References -/

theorem map_hierarchyId_totalled :
    ((plan nodes options w project).totalled []).nodes.map (·.hierarchyId) =
      (Sheet.ofNodes nodes options).written.map (·.2.hierarchyId) := by
  have agrees := (plan nodes options w project).agrees_totalled_empty
  rw [Batch.nodes, List.map_map]
  refine (agrees.map_eq (fun e => e.node.hierarchyId) fun _ => rfl).trans ?_
  rw [filled_plan h, List.map_map]
  exact (map_zipIdx_fst (fun g : RowGroup => g.hierarchyId) _).trans (map_hierarchyId_groups w)

/-- References are looked up among the exported nodes. -/
theorem hasId_totalled {id : String} :
    (Directory.ofNodes ((plan nodes options w project).totalled []).nodes).hasId id = true ↔
      id ∈ nodes.map (·.hierarchyId) := by
  have ids : (Directory.ofNodes ((plan nodes options w project).totalled []).nodes).map
      (·.hierarchyId) = (Sheet.ofNodes nodes options).written.map (·.2.hierarchyId) := by
    rw [← map_hierarchyId_totalled h w project, Directory.ofNodes, List.map_map]
    rfl
  rw [Directory.hasId_iff, ids]
  constructor
  · intro mem
    obtain ⟨q, hq, rfl⟩ := List.mem_map.mp mem
    exact List.mem_map_of_mem (List.mem_of_getElem? ((mem_written h options).mp hq))
  · intro mem
    obtain ⟨n, hn, rfl⟩ := List.mem_map.mp mem
    obtain ⟨i, here⟩ := List.getElem?_of_mem hn
    exact List.mem_map.mpr ⟨(i, n), (mem_written h options).mpr here, rfl⟩

theorem trimmed_totalled :
    (Directory.ofNodes ((plan nodes options w project).totalled []).nodes).Trimmed := by
  intro r hr
  have known := (hasId_totalled h w project).mp (Directory.hasId_iff _ |>.mpr (List.mem_map_of_mem hr))
  obtain ⟨n, hn, same⟩ := List.mem_map.mp known
  rw [← same]
  exact (Literal.text?_eq_some (h.node n hn).hierarchyId).1

/-- Formulas over exported nodes stay as they are. -/
theorem value_resolveFormula_totalled (owner : String) {f : Formula}
    (known : ∀ r ∈ f.rules, r.operand = "" ∨ r.operand ∈ nodes.map (·.hierarchyId)) :
    ((Directory.ofNodes ((plan nodes options w project).totalled []).nodes).resolveFormula owner
      f).value = f :=
  Directory.value_resolveFormula_of_known (trimmed_totalled h w project) owner fun r hr =>
    (known r hr).imp id (hasId_totalled h w project).mpr

end Plan

end Export

end Rollup

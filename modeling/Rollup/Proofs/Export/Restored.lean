import Mathlib.Data.List.Basic
import Mathlib.Data.List.Forall2
import Rollup.Proofs.Export.Mirror
import Rollup.Proofs.Export.RoundTrip
import Rollup.Proofs.LevelPath

/-!
# The sheet of an imported export

The nodes that an import of an export stores are exported in the order in which they are stored,
under the keys that the rows had, and all cells but those of formulas are the ones they came from.

Results:

* `hierarchy_congr`: exports with the same columns, keys and cells are the same.
* `mirrors_made`: the stored nodes stand in the order of the export.
* `keys_made`, `customFlags_made`: the keys and the columns of the second export.
* `sharedCells_made`: the cells that all rows of a node share.
-/

namespace Rollup.Export

/-! ## Exports with the same cells -/

namespace Sheet

/-- Two nodes have the same cells, each in its sheet. -/
structure SameCells (s s' : Sheet) (q q' : Nat × Node) : Prop where
  shared : s'.sharedCells q'.1 q'.2 = s.sharedCells q.1 q.2
  main : s'.mainFormulaCells q'.2 = s.mainFormulaCells q.2
  extra : ∀ key, extraFormulaCells q'.2 key = extraFormulaCells q.2 key

theorem recordsFrom_congr {s s' : Sheet} (layout : s'.layout = s.layout)
    (keys : s'.mainKeys.Perm s.mainKeys) {todo todo' : List (Nat × Node)} (same : List.Forall₂ (SameCells s s') todo todo') :
    ∀ next : Int, s'.recordsFrom next todo' = s.recordsFrom next todo := by
  induction same with
  | nil => intro next; rfl
  | @cons q q' _ _ head _ ih =>
    intro next
    have rows : extraRows q'.2 = extraRows q.2 := by
      rw [← length_extraFormulaCells q'.2 fun _ => 0, head.extra, length_extraFormulaCells]
    rw [recordsFrom, recordsFrom, nodeRecords, nodeRecords, rows, ExportKeys.after_of_perm keys,
      ExportKeys.further_of_perm keys, ih, layout, head.shared, head.main, head.extra]

end Sheet

/-- Exports with the same columns, keys and cells are the same. -/
theorem hierarchy_congr {nodes nodes' : List Node} {options : ExportOptions}
    (flags : (Sheet.ofNodes nodes' options).customFlags = (Sheet.ofNodes nodes options).customFlags)
    (keys : ∀ k, k ∈ (Sheet.ofNodes nodes' options).keys.map (·.2) ↔
      k ∈ (Sheet.ofNodes nodes options).keys.map (·.2))
    (same : List.Forall₂ (Sheet.SameCells (Sheet.ofNodes nodes options)
      (Sheet.ofNodes nodes' options)) (Sheet.ofNodes nodes options).written
      (Sheet.ofNodes nodes' options).written) :
    hierarchy nodes' options = hierarchy nodes options := by
  have layout : (Sheet.ofNodes nodes' options).layout = (Sheet.ofNodes nodes options).layout :=
    congrArg (fun flags => Layout.mk (Column.standard (Sheet.ofNodes nodes options).levels ++ flags))
      flags
  have perm : (Sheet.ofNodes nodes' options).mainKeys.Perm (Sheet.ofNodes nodes options).mainKeys :=
    (List.perm_ext_iff_of_nodup (ExportKeys.nodup_main _) (ExportKeys.nodup_main _)).mpr keys
  unfold hierarchy
  dsimp only
  rw [layout, Sheet.records, Sheet.records, ExportKeys.firstExtra_congr _ keys]
  exact congrArg _ (Sheet.recordsFrom_congr layout perm same _)

/-! ## Order -/

section Order

variable {nodes : List Node} (h : Exportable nodes)

include h

theorem ranked_ofNodes : (Forest.ofNodes nodes).Ranked (Forest.ofNodes nodes).depth := by
  refine Forest.ranked_depth (Forest.length_parents_ofNodes nodes) (fun link => ?_)
    h.acyclic_positions
  obtain ⟨-, m, -, there, -⟩ := Forest.link_ofNodes link
  exact (List.getElem?_eq_some_iff.mp there).1

/-- The node that is written at a place. -/
theorem written_nth (options : ExportOptions) {k : Nat} (bound : k < nodes.length) :
    ∃ n, nodes[(Forest.ofNodes nodes).nth k]? = some n ∧
      (Sheet.ofNodes nodes options).written[k]? = some ((Forest.ofNodes nodes).nth k, n) := by
  have ranked := ranked_ofNodes h
  have here : nodes[(Forest.ofNodes nodes).nth k]? = some _ :=
    List.getElem?_eq_getElem (Forest.nth_lt ranked bound)
  refine ⟨_, here, ?_⟩
  rw [getElem?_written (fun n hn => (h.node n hn).described), Forest.getElem?_exportOrder ranked bound,
    Option.bind_some, here, Option.map_some]

theorem nth_of_written {options : ExportOptions} {k : Nat} {q : Nat × Node}
    (hq : (Sheet.ofNodes nodes options).written[k]? = some q) :
    (Forest.ofNodes nodes).nth k = q.1 := by
  rw [getElem?_written fun n hn => (h.node n hn).described] at hq
  obtain ⟨i, hi, hq⟩ := Option.bind_eq_some_iff.mp hq
  obtain ⟨n, -, rfl⟩ := Option.map_eq_some_iff.mp hq
  rw [Forest.nth, hi, Option.getD_some]

theorem length_written (options : ExportOptions) :
    (Sheet.ofNodes nodes options).written.length = nodes.length := by
  refine Nat.le_antisymm (Nat.le_of_not_lt fun less => ?_) (Nat.le_of_not_lt fun less => ?_)
  · have here := List.getElem?_eq_getElem less
    rw [getElem?_written fun n hn => (h.node n hn).described,
      List.getElem?_eq_none (by rw [Forest.length_exportOrder (ranked_ofNodes h)]; exact Nat.le_refl _)]
      at here
    cases here
  · obtain ⟨n, -, here⟩ := written_nth h options less
    exact absurd (List.getElem?_eq_some_iff.mp here).1 (Nat.lt_irrefl _)

end Order

/-! ## The stored nodes -/

section Made

variable {nodes : List Node} (h : Exportable nodes) {options : ExportOptions} {w : Window}
  {project : String} {ids : List String} {made : List Node}
  (outcome : (plan nodes options w project).Outcome [] true [] ids made)

include h outcome

/-- The fields of a stored node that are not those of the exported node. -/
theorem fields_made {k : Nat} {q : Nat × Node}
    (hq : (Sheet.ofNodes nodes options).written[k]? = some q) {m : Node}
    (hm : made[k]? = some m) :
    m.metadata = [] ∧
      m.levelSorts = LevelPath.resolveSorts w
        ((List.range Column.maxLevels).map fun k =>
          ((Sheet.ofNodes nodes options).levelName q.1 k).getD "")
        ((List.range Column.maxLevels).map ((Sheet.ofNodes nodes options).levelOrder q.1 q.2)) ∧
      m.flags = { q.2.flags with
        leaf := q.2.flags.leaf && !((Forest.ofNodes nodes).children q.1).any (· ≠ q.1) } ∧
      m.customFlags = (Sheet.ofNodes nodes options).customFlags.map fun flag =>
        (flag, (Dict.get? flag q.2.customFlags).getD false) := by
  obtain ⟨m₀, id, number, before, hm₀, -, -, -, eq⟩ := made_at h outcome hq
  obtain rfl : m₀ = m := Option.some.inj (hm₀.symm.trans hm)
  have field : ∀ {α : Type} (f : Node → α), (∀ n : Node, f n.outline = f n) →
      f m₀ = f (((Sheet.ofNodes nodes options).planned w project number
          ((Sheet.ofNodes nodes options).keysFrom options before) q).storedAs id
        (((plan nodes options w project).links [] k).bind (ids[·]?))
        (q.2.flags.leaf && !((Forest.ofNodes nodes).children q.1).any (· ≠ q.1))) := by
    intro α f stays
    rw [← stays m₀, eq]
  exact ⟨field (·.metadata) fun _ => rfl, field (·.levelSorts) fun _ => rfl,
    field (·.flags) fun _ => rfl, field (·.customFlags) fun _ => rfl⟩

/-- The exported node of a stored node. -/
theorem written_of_made {k : Nat} {m : Node} (hm : made[k]? = some m) :
    ∃ n, nodes[(Forest.ofNodes nodes).nth k]? = some n ∧
      (Sheet.ofNodes nodes options).written[k]? = some ((Forest.ofNodes nodes).nth k, n) :=
  written_nth h options (length_made h outcome ▸ (List.getElem?_eq_some_iff.mp hm).1)

variable (fits : Literal.inRange (nextKey nodes options) = true)

include fits

/-- As long as the counter of keys has 64 bits, a node is stored with the key of its main row. -/
theorem xrefKey_made {k : Nat} {q : Nat × Node}
    (hq : (Sheet.ofNodes nodes options).written[k]? = some q) {m : Node}
    (hm : made[k]? = some m) :
    m.xrefKey = some ((Sheet.ofNodes nodes options).mainFilling q).key := by
  obtain ⟨m₀, id, number, before, hm₀, -, most, -, eq⟩ := made_at h outcome hq
  obtain rfl : m₀ = m := Option.some.inj (hm₀.symm.trans hm)
  calc m₀.xrefKey = m₀.outline.xrefKey := rfl
    _ = ((Sheet.ofNodes nodes options).group w number
          ((Sheet.ofNodes nodes options).keysFrom options before) q).led.leader.xrefKey := by
      rw [eq]
      rfl
    _ = some ((Sheet.ofNodes nodes options).mainFilling q).key := by
      rw [led_group fits w (List.mem_of_getElem? hq) number most]
      rfl

/-- The stored nodes stand in the order of the export. -/
theorem mirrors_made : Forest.Mirrors (Forest.ofNodes nodes) (Forest.ofNodes made) where
  size := length_made h outcome
  whole := Forest.length_parents_ofNodes made
  inside link := by
    obtain ⟨-, m, -, there, -⟩ := Forest.link_ofNodes link
    exact (List.getElem?_eq_some_iff.mp there).1
  parent {k} bound := by
    have hm : made[k]? = some _ := List.getElem?_eq_getElem bound
    obtain ⟨n, -, hq⟩ := written_of_made h outcome hm
    rcases parentId_made h outcome (keysFit_of_nextKey options h.legible fits) hq hm with ⟨root, none⟩ | ⟨j, r, m', link, hr, hm', some⟩
    · rw [root, Forest.parent?_ofNodes hm, none]
      rfl
    · rw [link, Forest.parent?_of_link (nodup_id_made outcome) hm hm' some, Option.map_some,
        nth_of_written h hr]
  sortKey {k} bound := by
    have hm : made[k]? = some _ := List.getElem?_eq_getElem bound
    obtain ⟨n, here, hq⟩ := written_of_made h outcome hm
    have same := (isCopy_made h outcome (keysFit_of_nextKey options h.legible fits) hq hm).sortOrder
    rw [Forest.sortKey, Forest.sortKey]
    have hm : (Forest.ofNodes made).nodes[k]? = some _ := hm
    have here : (Forest.ofNodes nodes).nodes[(Forest.ofNodes nodes).nth k]? = some n := here
    rw [hm, here, Option.map_some, Option.map_some, same]

theorem described_made : ∀ m ∈ made, m.isPlaceholder = false := by
  intro m mem
  obtain ⟨k, hm⟩ := List.getElem?_of_mem mem
  obtain ⟨n, here, hq⟩ := written_of_made h outcome hm
  have described := (h.node n (List.mem_of_getElem? here)).described
  have copy := isCopy_made h outcome (keysFit_of_nextKey options h.legible fits) hq hm
  rw [Node.isPlaceholder, Bool.or_eq_false_iff] at described
  rw [Node.isPlaceholder, copy.hierarchyId, described.1, (fields_made h outcome hq hm).1]
  rfl

/-- The stored nodes are written as they stand. -/
theorem getElem?_written_made (k : Nat) :
    (Sheet.ofNodes made options).written[k]? = (made[k]?).map fun m => (k, m) := by
  rw [getElem?_written (described_made h outcome fits),
    Forest.exportOrder_of_mirrors (ranked_ofNodes h) (mirrors_made h outcome fits)]
  by_cases bound : k < made.length
  · rw [List.getElem?_range (show k < (Forest.ofNodes made).size from bound), Option.bind_some]
  · rw [List.getElem?_eq_none (by simpa [Forest.size, Forest.ofNodes] using bound),
      List.getElem?_eq_none (Nat.le_of_not_lt bound)]
    rfl

/-! ## Keys and columns -/

/-- The keys of the second export are those of the first, in the order of the rows. -/
theorem keys_made : (Sheet.ofNodes made options).keys =
    (Sheet.ofNodes nodes options).written.mapIdx fun k q =>
      (k, ((Sheet.ofNodes nodes options).mainFilling q).key) := by
  set entries := (Sheet.ofNodes nodes options).written.mapIdx fun k q =>
    (k, ((Sheet.ofNodes nodes options).mainFilling q).key) with hentries
  have stored : (Sheet.ofNodes made options).storedKeys =
      entries.map fun q => (q.1, some q.2) := by
    refine List.ext_getElem? fun k => ?_
    rw [Sheet.storedKeys, List.getElem?_map, getElem?_written_made h outcome fits, hentries, List.getElem?_map,
      List.getElem?_mapIdx]
    cases hm : made[k]? with
    | none =>
      have bound := List.getElem?_eq_none_iff.mp hm
      rw [length_made h outcome, ← length_written h options] at bound
      rw [List.getElem?_eq_none bound]
      rfl
    | some m =>
      obtain ⟨n, -, hq⟩ := written_of_made h outcome hm
      rw [hq]
      simp [xrefKey_made h outcome fits hq hm]
  have distinct : (entries.map (·.2)).Nodup := by
    rw [List.Nodup, List.pairwise_map, List.pairwise_iff_getElem]
    intro j k hj hk less same
    rw [hentries, List.length_mapIdx] at hj hk
    have hq := List.getElem?_eq_getElem hj
    have hr := List.getElem?_eq_getElem hk
    simp only [hentries, List.getElem_mapIdx] at same
    have keyed := mainFilling_key (List.mem_of_getElem? hq)
    rw [same] at keyed
    have position := key_unique options keyed (mainFilling_key (List.mem_of_getElem? hr))
    exact absurd (index_of_nodup_map (nodup_written nodes options) hq hr position) (Nat.ne_of_lt less)
  rw [keys_ofNodes, stored, ExportKeys.main_of_distinct distinct]

/-- A row has the same key in both exports. -/
theorem lookup_keys_made {k : Nat} {q : Nat × Node}
    (hq : (Sheet.ofNodes nodes options).written[k]? = some q) :
    (Sheet.ofNodes made options).keys.lookup k = (Sheet.ofNodes nodes options).keys.lookup q.1 := by
  rw [mainFilling_key (List.mem_of_getElem? hq), keys_made h outcome fits]
  refine lookup_of_unique ?_ ?_
  · exact List.mem_of_getElem? (i := k) (by rw [List.getElem?_mapIdx, hq, Option.map_some])
  · intro key mem
    obtain ⟨j, hj⟩ := List.getElem?_of_mem mem
    rw [List.getElem?_mapIdx] at hj
    obtain ⟨r, hr, eq⟩ := Option.map_eq_some_iff.mp hj
    obtain ⟨rfl, rfl⟩ := Prod.mk.inj eq
    rw [Option.some.inj (hr.symm.trans hq)]

theorem mem_keys_made (key : Int) : key ∈ (Sheet.ofNodes made options).keys.map (·.2) ↔
    key ∈ (Sheet.ofNodes nodes options).keys.map (·.2) := by
  rw [keys_made h outcome fits]
  constructor
  · intro mem
    obtain ⟨p, hp, rfl⟩ := List.mem_map.mp mem
    obtain ⟨k, hk⟩ := List.getElem?_of_mem hp
    rw [List.getElem?_mapIdx] at hk
    obtain ⟨q, hq, rfl⟩ := Option.map_eq_some_iff.mp hk
    exact List.mem_map.mpr ⟨_, mem_of_lookup (mainFilling_key (List.mem_of_getElem? hq)), rfl⟩
  · intro mem
    obtain ⟨p, hp, rfl⟩ := List.mem_map.mp mem
    have position : p.1 ∈ (Sheet.ofNodes nodes options).written.map (·.1) := by
      have known := ExportKeys.mem_map_fst_main.mp (List.mem_map_of_mem (f := Prod.fst) hp)
      rwa [List.map_map] at known
    obtain ⟨q, hq, same⟩ := List.mem_map.mp position
    have nodup : ((Sheet.ofNodes nodes options).keys.map (·.1)).Nodup := by
      refine ExportKeys.nodup_map_fst_main ?_
      rw [List.map_map]
      exact nodup_written nodes options
    have entry := mem_of_lookup (mainFilling_key hq)
    have eq := List.inj_on_of_nodup_map nodup entry hp same
    obtain ⟨k, hk⟩ := List.getElem?_of_mem hq
    refine List.mem_map.mpr ⟨(k, p.2), List.mem_of_getElem? (i := k) ?_, rfl⟩
    rw [List.getElem?_mapIdx, hk, Option.map_some, ← eq]

/-- Both exports have the same columns for custom flags. -/
theorem customFlags_made :
    (Sheet.ofNodes made options).customFlags = (Sheet.ofNodes nodes options).customFlags := by
  have keys : ∀ {k : Nat} {m : Node}, made[k]? = some m →
      Dict.keys m.customFlags = (Sheet.ofNodes nodes options).customFlags := by
    intro k m hm
    obtain ⟨n, -, hq⟩ := written_of_made h outcome hm
    rw [(fields_made h outcome hq hm).2.2.2, Dict.keys, List.map_map]
    exact List.map_id _
  have eq : (Sheet.ofNodes made options).customFlags = Dict.sortedDistinct
      ((Sheet.ofNodes made options).written.flatMap fun p => Dict.keys p.2.customFlags) := rfl
  rw [eq, customFlags_eq h]
  refine Dict.sortedDistinct_congr fun flag => ?_
  have exported : flag ∈ (nodes.flatMap fun n => Dict.keys n.customFlags) ↔
      flag ∈ (Sheet.ofNodes nodes options).customFlags := by
    rw [customFlags_eq h, Dict.mem_sortedDistinct]
  rw [exported, List.mem_flatMap]
  constructor
  · rintro ⟨p, hp, hflag⟩
    obtain ⟨k, hk⟩ := List.getElem?_of_mem hp
    rw [getElem?_written_made h outcome fits] at hk
    obtain ⟨m, hm, rfl⟩ := Option.map_eq_some_iff.mp hk
    rwa [keys hm] at hflag
  · intro hflag
    have some : made ≠ [] := by
      rintro rfl
      have none := length_made h outcome
      rw [customFlags_eq h, Dict.mem_sortedDistinct, List.eq_nil_of_length_eq_zero none.symm] at hflag
      cases hflag
    obtain ⟨m, hm⟩ := List.exists_mem_of_ne_nil _ some
    obtain ⟨k, hk⟩ := List.getElem?_of_mem hm
    refine ⟨(k, m), List.mem_of_getElem? (i := k) ?_, ?_⟩
    · rw [getElem?_written_made h outcome fits, hk, Option.map_some]
    · rwa [keys hk]

end Made

/-! ## Cells -/

section Cells

variable {nodes : List Node} (h : Exportable nodes) {options : ExportOptions} {w : Window}
  {project : String} {ids : List String} {made : List Node}
  (outcome : (plan nodes options w project).Outcome [] true [] ids made)
  (fits : Literal.inRange (nextKey nodes options) = true)

include h outcome fits

/-- What a stored node takes from its exported node, wherever that stands. -/
theorem map_nodes_made {α : Type} {f : Node → α}
    (same : ∀ {n m : Node}, IsCopy nodes made n m → f m = f n) {j : Nat} (bound : j < made.length) :
    (made[j]?).map f = (nodes[(Forest.ofNodes nodes).nth j]?).map f := by
  have hm := List.getElem?_eq_getElem bound
  obtain ⟨n, here, hq⟩ := written_of_made h outcome hm
  rw [hm, here, Option.map_some, Option.map_some,
    same (isCopy_made h outcome (keysFit_of_nextKey options h.legible fits) hq hm)]

variable {k : Nat} {m n : Node} (hm : made[k]? = some m)
  (hq : (Sheet.ofNodes nodes options).written[k]? = some ((Forest.ofNodes nodes).nth k, n))

include hm

theorem parentCells_made : (Sheet.ofNodes made options).parentCells k =
    (Sheet.ofNodes nodes options).parentCells ((Forest.ofNodes nodes).nth k) := by
  have bound := (List.getElem?_eq_some_iff.mp hm).1
  have parent := (mirrors_made h outcome fits).parent bound
  unfold Sheet.parentCells
  rw [forest_ofNodes, forest_ofNodes, ← parent]
  cases link : (Forest.ofNodes made).parent? k with
  | none => rfl
  | some p =>
    have inside : p < made.length := (mirrors_made h outcome fits).inside link
    obtain ⟨n, -, hq⟩ := written_of_made h outcome (List.getElem?_eq_getElem inside)
    have ids := map_nodes_made h outcome fits (f := fun n => (Column.parentId, n.hierarchyId))
      (fun copy => by rw [copy.hierarchyId]) inside
    rw [Option.map_some]
    dsimp only
    rw [lookup_keys_made h outcome fits hq]
    exact congrArg (fun cells => Option.toList cells ++ _) ids

include hq

theorem flagCells_made : (Sheet.ofNodes made options).flagCells k m =
    (Sheet.ofNodes nodes options).flagCells ((Forest.ofNodes nodes).nth k) n := by
  have bound := (List.getElem?_eq_some_iff.mp hm).1
  have children := Forest.any_children_of_mirrors (ranked_ofNodes h) (mirrors_made h outcome fits) bound
  unfold Sheet.flagCells
  dsimp only
  rw [forest_ofNodes, forest_ofNodes, children, (fields_made h outcome hq hm).2.2.1]
  dsimp only
  rw [Bool.and_assoc, Bool.and_self]

theorem customFlagCells_made :
    ((Sheet.ofNodes made options).customFlags.map fun flag =>
      (flag, Literal.boolText ((CustomFlags.get? flag m.customFlags).getD false))) =
    (Sheet.ofNodes nodes options).customFlags.map fun flag =>
      (flag, Literal.boolText ((CustomFlags.get? flag n.customFlags).getD false)) := by
  rw [customFlags_made h outcome fits]
  refine List.map_congr_left fun flag hflag => ?_
  have kept := (isName_of_mem_customFlags h.legible options hflag).kept
  have entries := lookup_filterMap (Sheet.ofNodes nodes options).customFlags
    (fun flag => some ((Dict.get? flag n.customFlags).getD false)) flag
  simp only [Option.map_some, List.filterMap_eq_map'] at entries
  rw [CustomFlags.get?, CustomFlags.get?, kept, (fields_made h outcome hq hm).2.2.2,
    Dict.get?_eq_lookup, entries, if_pos (by simpa using hflag), Option.getD_some]

end Cells

/-! ## Levels -/

/-- The names in the level columns of a node. -/
def Sheet.levelNames (s : Sheet) (i : Nat) : List String :=
  ((s.forest.lineage i).take s.levels).map fun j => ((s.forest.nodes[j]?).map (·.name)).getD ""

theorem Sheet.levelName_eq (s : Sheet) (i k : Nat) : s.levelName i k = (s.levelNames i)[k]? := by
  rw [levelName, levelNames, List.getElem?_map]

section Levels

variable {nodes : List Node} (h : Exportable nodes) {options : ExportOptions}
  (apart : ∀ n ∈ nodes, ∀ p ∈ nodes, n.parentId = some p.id → n.name ≠ p.name)

include h in
theorem plain_levelNames {i : Nat} (bound : i < nodes.length) :
    ∀ v ∈ (Sheet.ofNodes nodes options).levelNames i, Text.trim v = v ∧ v ≠ "" := by
  intro v hv
  obtain ⟨j, hj, rfl⟩ := List.mem_map.mp hv
  have inside : j < nodes.length :=
    Forest.lt_of_mem_lineage (ranked_ofNodes h).inside bound (List.mem_of_mem_take hj)
  have there : (Sheet.ofNodes nodes options).forest.nodes[j]? = some nodes[j] :=
    List.getElem?_eq_getElem inside
  rw [there]
  exact Literal.text?_eq_some (h.node _ (List.getElem_mem inside)).name

include apart in
/-- No name stands next to its like. -/
theorem isChain_levelNames (i : Nat) :
    ((Sheet.ofNodes nodes options).levelNames i).IsChain (· ≠ ·) := by
  rw [Sheet.levelNames, List.isChain_map]
  refine ((Forest.isChain_lineage (Forest.ofNodes nodes) i).take _).imp fun p j link => ?_
  obtain ⟨n, m, hn, hm, parent⟩ := Forest.link_ofNodes link
  have child : (Sheet.ofNodes nodes options).forest.nodes[j]? = some n := hn
  have above : (Sheet.ofNodes nodes options).forest.nodes[p]? = some m := hm
  rw [child, above]
  exact (apart n (List.mem_of_getElem? hn) m (List.mem_of_getElem? hm) parent).symm

variable {project : String} {ids : List String} {made : List Node}
  (outcome : (plan nodes options .standard project).Outcome [] true [] ids made)
  {k : Nat} {m n : Node} (hm : made[k]? = some m)
  (hq : (Sheet.ofNodes nodes options).written[k]? = some ((Forest.ofNodes nodes).nth k, n))

include h outcome hm hq

/-- The sort values of a stored node are those of its row at the levels whose name does not repeat
    the one before, as far as the window reaches. -/
theorem levelSorts_fresh {i : Nat} (place : i = (Forest.ofNodes nodes).nth k) : m.levelSorts =
    ((List.range (min 9 ((Sheet.ofNodes nodes options).levelNames i).length)).filter
      (LevelPath.IsFresh ((Sheet.ofNodes nodes options).levelNames i))).map
        ((Sheet.ofNodes nodes options).levelOrder i n) := by
  subst place
  have here := (mem_written h options).mp (List.mem_of_getElem? hq)
  have bound := (List.getElem?_eq_some_iff.mp here).1
  have columns : min Column.maxLevels 9 = 9 := rfl
  rw [(fields_made h outcome hq hm).2.1]
  simp only [Sheet.levelName_eq]
  rw [show Window.standard = ⟨1, 9⟩ from rfl,
    LevelPath.resolveSorts_of_names (plain_levelNames h bound) Column.maxLevels 9, columns]
  refine List.map_congr_left fun j hj => ?_
  have inside := List.mem_range.mp (List.mem_of_mem_filter hj)
  have column : j < Column.maxLevels := by
    have : Column.maxLevels = 15 := rfl
    omega
  rw [List.getElem?_map, List.getElem?_range column, Option.map_some, Option.join_some]

include apart

/-- Where no node has the name of its parent, these are all levels. -/
theorem levelSorts_made (j : Nat) : (m.levelSorts[j]?).join =
    if j < Window.standard.last then
      (Sheet.ofNodes nodes options).levelOrder ((Forest.ofNodes nodes).nth k) n j else none := by
  set s := Sheet.ofNodes nodes options with hs
  set i := (Forest.ofNodes nodes).nth k with hi
  have beyond : (s.levelNames i).length ≤ j → s.levelOrder i n j = none := by
    intro beyond
    rw [Sheet.levelNames, List.length_map] at beyond
    rw [Sheet.levelOrder, List.getElem?_eq_none beyond, Option.bind_none]
  have all : (List.range (min 9 (s.levelNames i).length)).filter
      (LevelPath.IsFresh (s.levelNames i)) = List.range (min 9 (s.levelNames i).length) := by
    refine List.filter_eq_self.mpr fun k hk => ?_
    have inside := List.mem_range.mp hk
    rw [decide_eq_true_eq]
    exact LevelPath.isFresh_iff_isChain.mpr (isChain_levelNames apart i) k
      (Nat.lt_of_lt_of_le inside (Nat.min_le_right _ _))
  have window : Window.standard.last = 9 := rfl
  rw [levelSorts_fresh h outcome hm hq hi, all, List.getElem?_map, window]
  by_cases inside : j < min 9 (s.levelNames i).length
  · rw [List.getElem?_range inside, Option.map_some, Option.join_some, if_pos (by omega)]
  · rw [List.getElem?_eq_none (by rw [List.length_range]; exact Nat.le_of_not_lt inside),
      Option.map_none, Option.join_none]
    split_ifs with less
    · exact (beyond (by omega)).symm
    · rfl

variable (fits : Literal.inRange (nextKey nodes options) = true)

include fits

/-- The level cells of both exports are the same. -/
theorem levelCells_made (short : n.levelSorts.length ≤ 9) :
    (Sheet.ofNodes made options).levelCells k m =
      (Sheet.ofNodes nodes options).levelCells ((Forest.ofNodes nodes).nth k) n := by
  have bound := (List.getElem?_eq_some_iff.mp hm).1
  have mirrors := mirrors_made h outcome fits
  have lineage := Forest.lineage_of_mirrors (ranked_ofNodes h) mirrors bound
  have sortOrder :=
    (isCopy_made h outcome (keysFit_of_nextKey options h.legible fits) hq hm).sortOrder
  have levels : (Sheet.ofNodes made options).levels = (Sheet.ofNodes nodes options).levels := rfl
  unfold Sheet.levelCells
  dsimp only
  rw [forest_ofNodes, forest_ofNodes, ← lineage, ← List.map_take, List.zipIdx_map, List.flatMap_map,
    List.length_map, levels]
  refine List.flatMap_congr fun p hp => ?_
  have there := List.mem_zipIdx_iff_getElem?.mp hp
  have inside : p.1 < made.length :=
    Forest.lt_of_mem_lineage mirrors.inside bound (List.mem_of_mem_take (List.mem_of_getElem? there))
  have name := map_nodes_made h outcome fits (f := fun n => n.name) (fun copy => copy.name) inside
  have order : (Sheet.ofNodes nodes options).levelOrder ((Forest.ofNodes nodes).nth k) n p.2 =
      ((n.levelSorts[p.2]?).join).or
        (if p.2 + 1 = ((Forest.ofNodes made).lineage k).length then some n.sortOrder else none) := by
    rw [Sheet.levelOrder, forest_ofNodes, ← lineage, ← List.map_take, List.getElem?_map, there,
      List.length_map]
    rfl
  have sort : ((m.levelSorts[p.2]?).join).or
        (if p.2 + 1 = ((Forest.ofNodes made).lineage k).length then some m.sortOrder else none) =
      ((n.levelSorts[p.2]?).join).or
        (if p.2 + 1 = ((Forest.ofNodes made).lineage k).length then some n.sortOrder else none) := by
    rw [levelSorts_made h apart outcome hm hq, sortOrder, order]
    by_cases window : p.2 < Window.standard.last
    · rw [if_pos window, Option.or_assoc, Option.or_self]
    · rw [if_neg window, List.getElem?_eq_none (Nat.le_trans short (Nat.le_of_not_lt window))]
      rfl
  have name : ((Forest.ofNodes made).nodes[p.1]?).map (·.name) =
      ((Forest.ofNodes nodes).nodes[(Forest.ofNodes nodes).nth p.1]?).map (·.name) := name
  rw [sort, name]
  rfl

/-- The cells that all rows of a node share are the same in both exports. -/
theorem sharedCells_made (short : n.levelSorts.length ≤ 9) :
    (Sheet.ofNodes made options).sharedCells k m =
      (Sheet.ofNodes nodes options).sharedCells ((Forest.ofNodes nodes).nth k) n := by
  have copy := isCopy_made h outcome (keysFit_of_nextKey options h.legible fits) hq hm
  have filters : (m.filter.map (·.groups)).getD [] = (n.filter.map (·.groups)).getD [] :=
    copy.filterGroups
  unfold Sheet.sharedCells
  rw [lookup_keys_made h outcome fits hq, parentCells_made h outcome fits hm,
    levelCells_made h apart outcome hm hq fits short, flagCells_made h outcome fits hm hq,
    customFlagCells_made h outcome fits hm hq, filters, copy.hierarchyId, copy.name, copy.description,
    copy.isRoot, copy.sortOrder]

end Levels

end Rollup.Export


import Mathlib.Data.List.Basic
import Mathlib.Tactic.SplitIfs
import Rollup.Proofs.Import.Outcome

/-!
# Importing a file again

A second import of a file finds every group stored, and for every placeholder either its path or a
node that can stand for it. So it adds nothing.

Results:

* `grows_foldl`: what adding placeholders does to the entries and the ids of a batch.
* `foldl_addPlaceholder_again`: a run over placeholders that adds nothing, next to an earlier one.
* `drafts_eq_nil`: the second import has no new nodes.
* `rows_again`: the store and the summary after it.
-/

namespace Rollup

namespace Batch

/-! ## Growing batches -/

/-- A batch that grew out of another one: entries are added at the end, ids are registered, and
    every registered id is an old one or that of an entry. -/
structure Grows (b c : Batch) : Prop where
  entries : ∃ es, c.entries = b.entries ++ es
  stored : c.stored = b.stored
  ids : ∀ k ∈ b.fresh.ids.map (·.1), k ∈ c.fresh.ids.map (·.1)
  origin : ∀ k ∈ c.fresh.ids.map (·.1),
    k ∈ b.fresh.ids.map (·.1) ∨ k ∈ c.entries.map (·.node.hierarchyId)

theorem Grows.refl (b : Batch) : b.Grows b :=
  ⟨⟨[], (List.append_nil _).symm⟩, rfl, fun _ h => h, fun _ h => Or.inl h⟩

theorem Grows.trans {a b c : Batch} (h : a.Grows b) (h' : b.Grows c) : a.Grows c := by
  obtain ⟨es, hes⟩ := h.entries
  obtain ⟨es', hes'⟩ := h'.entries
  refine ⟨⟨es ++ es', by rw [hes', hes, List.append_assoc]⟩, h'.stored.trans h.stored,
    fun k hk => h'.ids k (h.ids k hk), fun k hk => ?_⟩
  rcases h'.origin k hk with hk | hk
  · rcases h.origin k hk with hk | hk
    · exact Or.inl hk
    · refine Or.inr ?_
      rw [hes', List.map_append]
      exact List.mem_append_left _ hk
  · exact Or.inr hk

end Batch

namespace Assembly

variable {p : ImportPlan}

theorem grows_addPlaceholder (b : Batch) (h : Placeholder) : b.Grows (addPlaceholder p b h) := by
  rcases addPlaceholder_cases p b h with ⟨-, eq⟩ | ⟨i, -, -, eq⟩ | ⟨-, -, -, eq⟩
  · rw [eq]
    exact .refl b
  · have ids : (b.register (·.addPath h.path i)).fresh.ids = b.fresh.ids := ids_addPath _ _ _
    rw [eq]
    exact ⟨⟨[], (List.append_nil _).symm⟩, rfl, fun k hk => ids ▸ hk, fun k hk => Or.inl (ids ▸ hk)⟩
  · set e := placeholderEntry p.project h
    have ids : (addPlaceholder p b h).fresh.ids = b.fresh.ids ++ [(h.hierarchyId, b.size)] := by
      rw [eq]
      exact ids_addPath _ _ _
    have entries : (addPlaceholder p b h).entries = b.entries ++ [e] := by
      rw [eq]
      rfl
    refine ⟨⟨[e], entries⟩, by rw [eq]; rfl, fun k hk => ?_, fun k hk => ?_⟩
    · rw [ids, List.map_append]
      exact List.mem_append_left _ hk
    · rw [ids, List.map_append, List.mem_append, List.map_singleton, List.mem_singleton] at hk
      rcases hk with hk | rfl
      · exact Or.inl hk
      · refine Or.inr ?_
        rw [entries, List.map_append]
        exact List.mem_append_right _ (List.mem_singleton.mpr rfl)

theorem grows_foldl (hs : List Placeholder) : ∀ b : Batch,
    b.Grows (hs.foldl (addPlaceholder p) b) := by
  induction hs with
  | nil => intro b; exact .refl b
  | cons h hs ih => intro b; exact (grows_addPlaceholder b h).trans (ih _)

theorem path?_addPath {t : KeyTable} {path q : List String} {i : Nat} :
    ((t.addPath q i).path? path).isSome = true ↔
      (t.path? path).isSome = true ∨ (path = q ∧ q ≠ []) := by
  unfold KeyTable.path? KeyTable.addPath
  split_ifs with empty
  · simp [empty]
  · rw [lookup_isSome_iff_mem, lookup_isSome_iff_mem, List.map_append, List.mem_append]
    simp [empty]

/-- After its turn the path of a placeholder leads somewhere. -/
theorem path?_addPlaceholder (b : Batch) (h : Placeholder) (path : List String) :
    ((addPlaceholder p b h).fresh.path? path).isSome = true ↔
      (b.fresh.path? path).isSome = true ∨ (path = h.path ∧ h.path ≠ []) := by
  rcases addPlaceholder_cases p b h with ⟨known, eq⟩ | ⟨i, -, -, eq⟩ | ⟨-, -, -, eq⟩
  · rw [eq]
    refine ⟨Or.inl, ?_⟩
    rintro (hp | ⟨rfl, -⟩)
    · exact hp
    · exact known
  · rw [eq]
    exact path?_addPath
  · rw [eq]
    exact path?_addPath

/-- A placeholder next to an earlier batch `b`: if what led somewhere then does so now, and the ids
    registered then are stored now, it would have been added then, and is not added now. -/
theorem addPlaceholder_again {b c : Batch} {h : Placeholder}
    (paths : (b.fresh.path? h.path).isSome = true → (c.fresh.path? h.path).isSome = true)
    (matched : (b.storedMatch? h.hierarchyId h.path h.name).isSome = true →
      (c.storedMatch? h.hierarchyId h.path h.name).isSome = true)
    (ids : ∀ k ∈ (addPlaceholder p b h).fresh.ids.map (·.1), (c.stored.id? k).isSome = true) :
    (addPlaceholder p c h).entries = c.entries := by
  have byId : h.hierarchyId ∈ (addPlaceholder p b h).fresh.ids.map (·.1) →
      c.storedMatch? h.hierarchyId h.path h.name ≠ none := by
    intro mem
    have stored := ids _ mem
    rw [Batch.storedMatch?, Ne, Option.or_eq_none_iff, Option.or_eq_none_iff,
      Option.or_eq_none_iff]
    rintro ⟨⟨⟨none, -⟩, -⟩, -⟩
    rw [none] at stored
    cases stored
  rcases addPlaceholder_cases p c h with ⟨-, eq⟩ | ⟨i, -, -, eq⟩ | ⟨noPath, -, noMatch, eq⟩
  · rw [eq]
  · rw [eq]
    rfl
  · exfalso
    rcases addPlaceholder_cases p b h with ⟨known, -⟩ | ⟨i, -, found, eq'⟩ | ⟨-, -, -, eq'⟩
    · rw [paths known] at noPath
      cases noPath
    · rcases Option.or_eq_some_iff.mp found with found | ⟨-, found⟩
      · refine byId ((grows_addPlaceholder b h).ids _ ?_) noMatch
        exact lookup_isSome_iff_mem.mp (Option.isSome_iff_exists.mpr ⟨i, found⟩)
      · have := matched (by rw [found]; rfl)
        rw [noMatch] at this
        cases this
    · refine byId ?_ noMatch
      have added : ((b.fresh.addId h.hierarchyId b.size).addPath h.path b.size).ids =
          b.fresh.ids ++ [(h.hierarchyId, b.size)] := ids_addPath _ _ _
      rw [eq']
      change h.hierarchyId ∈
        (((b.fresh.addId h.hierarchyId b.size).addPath h.path b.size).ids).map (·.1)
      rw [added, List.map_append]
      exact List.mem_append_right _ (List.mem_singleton.mpr rfl)

/-- A run over placeholders next to an earlier one `b`: whatever led somewhere then does so now, and
    the ids registered then are stored now. So nothing is added. -/
theorem foldl_addPlaceholder_again (hs : List Placeholder) : ∀ b c : Batch,
    (∀ path, (b.fresh.path? path).isSome = true → (c.fresh.path? path).isSome = true) →
    (∀ h ∈ hs, (b.storedMatch? h.hierarchyId h.path h.name).isSome = true →
      (c.storedMatch? h.hierarchyId h.path h.name).isSome = true) →
    (∀ k ∈ (hs.foldl (addPlaceholder p) b).fresh.ids.map (·.1), (c.stored.id? k).isSome = true) →
    (hs.foldl (addPlaceholder p) c).entries = c.entries := by
  induction hs with
  | nil => intro b c _ _ _; rfl
  | cons h hs ih =>
    intro b c paths matched ids
    rw [List.foldl_cons] at ids ⊢
    have later := grows_foldl (p := p) hs (addPlaceholder p b h)
    have stays := addPlaceholder_again (p := p) (paths h.path) (matched h (by simp)) fun k mem =>
      ids k (later.ids k mem)
    have run := ih (addPlaceholder p b h) (addPlaceholder p c h) ?_ ?_ ?_
    · rw [run, stays]
    · intro path
      rw [path?_addPlaceholder, path?_addPlaceholder]
      rintro (hp | hp)
      · exact Or.inl (paths path hp)
      · exact Or.inr hp
    · intro h' hh'
      rw [Batch.storedMatch?, Batch.storedMatch?, (grows_addPlaceholder b h).stored,
        (grows_addPlaceholder c h).stored]
      exact matched h' (by simp [hh'])
    · rw [(grows_addPlaceholder c h).stored]
      exact ids

end Assembly

namespace ImportPlan

/-! ## The second import -/

/-- Every node of the first list has one with its keys in the second. -/
def Covers (later earlier : List Node) : Prop :=
  ∀ n ∈ earlier, ∃ m ∈ later,
    m.hierarchyId = n.hierarchyId ∧ m.name = n.name ∧ m.levelPath = n.levelPath

theorem newGroups_eq_nil {p : ImportPlan} {stored : List Node}
    (all : ∀ g ∈ p.groups, g.hierarchyId ∈ stored.map (·.hierarchyId)) :
    p.newGroups (Batch.ofStored stored) = [] := by
  rw [List.eq_nil_iff_forall_not_mem]
  intro q mem
  exact p.unstored_newGroups mem (all q.1 (p.mem_groups_of_newGroups _ mem))

/-- The paths that groups register do not depend on what is stored. -/
theorem map_fst_paths_grouped (p : ImportPlan) (stored : List Node) :
    (p.grouped stored).fresh.paths.map (·.1) =
      (((p.groups.zipIdx.filter fun q => !p.isRepeat q.2).map (·.1)).filter
        fun g => g.path ≠ []).map (·.path) := by
  rw [grouped_eq, ← Assembly.map_fst_placesFrom p (Batch.ofStored stored) _ stored.length]
  simp only [Assembly.foldl_groupKeys, List.nil_append, List.map_map, List.filter_map]
  rfl

theorem map_fst_ids_grouped (p : ImportPlan) (stored : List Node) :
    (p.grouped stored).fresh.ids.map (·.1) =
      ((p.groups.zipIdx.filter fun q => !p.isRepeat q.2).map (·.1)).map (·.hierarchyId) := by
  rw [grouped_eq, ← Assembly.map_fst_placesFrom p (Batch.ofStored stored) _ stored.length]
  simp only [Assembly.foldl_groupKeys, List.nil_append, List.map_map]
  rfl

/-- The ids that an import registers are those of its nodes. -/
theorem mem_nodeIds_of_registered {p : ImportPlan} {stored : List Node}
    (distinct : (stored.map (·.hierarchyId)).Nodup) {k : String}
    (mem : k ∈ (p.filled stored).fresh.ids.map (·.1)) : k ∈ p.nodeIds stored := by
  rcases (Assembly.grows_foldl p.placeholders (p.grouped stored)).origin k mem with hk | hk
  · rw [map_fst_ids_grouped] at hk
    obtain ⟨g, hg, rfl⟩ := List.mem_map.mp hk
    obtain ⟨q, hq, rfl⟩ := List.mem_map.mp hg
    exact p.group_mem_nodeIds distinct
      (List.fst_mem_of_mem_zipIdx (List.mem_of_mem_filter hq))
  · exact hk

/-- An import over all nodes of an earlier import of the same plan has nothing to add. -/
theorem drafts_eq_nil {p : ImportPlan} {stored stored' : List Node} {added : List Placeholder}
    (distinct : (stored.map (·.hierarchyId)).Nodup)
    (ids : ∀ k ∈ p.nodeIds stored, k ∈ stored'.map (·.hierarchyId)) (covers : Covers stored' stored)
    (drafted : (p.filled stored').Drafted stored' p.project (p.drafts stored' added)) :
    p.drafts stored' added = [] := by
  have groups : p.newGroups (Batch.ofStored stored') = [] :=
    newGroups_eq_nil fun g hg => ids _ (p.group_mem_nodeIds distinct hg)
  have keys : ∀ ns : List Node, (p.grouped ns).stored = Batch.storedKeys ns 0 := by
    intro ns
    rw [grouped_eq]
  have same := Assembly.foldl_addPlaceholder_again (p := p) p.placeholders (p.grouped stored)
    (p.grouped stored') ?_ ?_ ?_
  · have entries := drafted.entries
    rw [filled, same, grouped_eq, groups] at entries
    simpa using entries
  · intro path
    rw [KeyTable.path?, KeyTable.path?, lookup_isSome_iff_mem, lookup_isSome_iff_mem,
      map_fst_paths_grouped, map_fst_paths_grouped]
    exact id
  · intro h _
    rw [Batch.storedMatch?_isSome (keys stored), Batch.storedMatch?_isSome (keys stored')]
    rintro ⟨n, hn, cases⟩
    obtain ⟨m, hm, hid, hname, hpath⟩ := covers n hn
    exact ⟨m, hm, by rw [hid, hname, hpath]; exact cases⟩
  · intro k hk
    rw [keys, Batch.storedKeys_id?_isSome]
    exact ids k (mem_nodeIds_of_registered distinct hk)

end ImportPlan

/-- An import over all nodes of an earlier one of the same rows changes nothing. -/
theorem Import.rows_again {s s' : Store} {project : String} {d : Dialect} {w : Window}
    (marks : Bool) {rs : List HierarchyRow} (known : s'.hasProject project = true)
    (distinct : ((s.nodesOf project).map (·.hierarchyId)).Nodup)
    (ids : (s'.nodes.map (·.id)).Nodup) (named : ∀ n ∈ s'.nodesOf project, n.id ≠ "")
    (keys : ((s'.nodesOf project).map (·.hierarchyId)).Nodup)
    (all : ∀ k ∈ (ImportPlan.ofRows project d w rs).1.nodeIds (s.nodesOf project),
      k ∈ (s'.nodesOf project).map (·.hierarchyId))
    (covers : ImportPlan.Covers (s'.nodesOf project) (s.nodesOf project)) :
    ∃ warnings, Import.rows .permissive s' project d w marks rs =
      (s', { skipped := (ImportPlan.ofRows project d w rs).1.groups.length
             errors := (d.group w rs).2
             warnings := warnings }) := by
  obtain ⟨added, ids', made, warnings, o, -, eq⟩ :=
    rows_outcome s' project d w marks rs known ids named keys
  set p := (ImportPlan.ofRows project d w rs).1
  have none : p.drafts (s'.nodesOf project) added = [] :=
    ImportPlan.drafts_eq_nil distinct all covers o.drafted
  have noGroups : p.newGroups (Batch.ofStored (s'.nodesOf project)) = [] :=
    List.map_eq_nil_iff.mp (List.append_eq_nil_iff.mp none).1
  have noPlaceholders : added = [] := List.map_eq_nil_iff.mp (List.append_eq_nil_iff.mp none).2
  have noNodes : made = [] := by
    have := o.length_made
    change made.length = (p.drafts (s'.nodesOf project) added).length at this
    rw [none] at this
    exact List.length_eq_zero_iff.mp this
  have count := p.length_groups (Batch.ofStored (s'.nodesOf project))
  rw [noGroups, List.length_nil, Nat.add_zero] at count
  refine ⟨warnings, ?_⟩
  rw [eq, noNodes, noGroups, noPlaceholders, List.append_nil, count]
  rfl

end Rollup

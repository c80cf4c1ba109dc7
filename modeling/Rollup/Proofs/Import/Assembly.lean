import Mathlib.Data.List.Basic
import Mathlib.Tactic.SplitIfs
import Rollup.Proofs.Import.Conflicts

/-!
# The batch of a plan

The batch of an import is built in passes: stored nodes, new groups, placeholders, totals and
references. The first three passes fix the entries; the last two change formulas and totals only.

Results:

* `foldl_addGroup`: the entries and the keys after the groups.
* `Drafted`: what holds of a batch while nodes are added, kept by `drafted_addPlaceholder`.
* `drafted_filled`: what holds of the batch with all its nodes.
-/

namespace Rollup

/-! ## Groups -/

namespace Assembly

/-- The entry of a new group at a position of the file. -/
def groupEntry (project : String) (q : RowGroup × Nat) : BatchEntry :=
  ⟨q.1.node project, .imported, q.1.path, none, some q.2⟩

/-- The groups whose keys are registered, with the positions of their nodes; new nodes stand from
    `next` on. -/
def placesFrom (p : ImportPlan) (start : Batch) : (next : Nat) → List (RowGroup × Nat) →
    List (RowGroup × Nat)
  | _, [] => []
  | next, (g, gi) :: rest =>
    if p.isRepeat gi then placesFrom p start next rest
    else match (p.existing start).lookup gi with
      | some i => (g, i) :: placesFrom p start next rest
      | none => (g, next) :: placesFrom p start (next + 1) rest

theorem addGroup_eq (p : ImportPlan) (start : Batch) (a : Assembly) (gi : Nat) (g : RowGroup) :
    addGroup p p.repeats (p.existing start) a gi g =
      if p.isRepeat gi = true then a
      else match (p.existing start).lookup gi with
        | some i => { a with batch := a.batch.register (groupKeys g i) }
        | none =>
          { batch := (a.batch.push (groupEntry p.project (g, gi))).register
              (groupKeys g a.batch.size)
            placed := a.placed ++ [(gi, a.batch.size)]
            warnings := a.warnings ++ g.nodeWarnings } :=
  rfl

theorem foldl_addGroup (p : ImportPlan) (start : Batch) (gs : List (RowGroup × Nat)) :
    ∀ a : Assembly,
      (gs.foldl (fun a (g, gi) => addGroup p p.repeats (p.existing start) a gi g) a).batch =
        { a.batch with
          entries := a.batch.entries ++
            (gs.filter fun q => p.isNew start q.2).map (groupEntry p.project)
          fresh := (placesFrom p start a.batch.size gs).foldl
            (fun keys q => groupKeys q.1 q.2 keys) a.batch.fresh } := by
  induction gs with
  | nil => intro a; simp [placesFrom]
  | cons q gs ih =>
    obtain ⟨g, gi⟩ := q
    intro a
    rw [List.foldl_cons, ih, placesFrom]
    dsimp only
    rw [addGroup_eq]
    by_cases rep : p.isRepeat gi = true
    · simp [rep, ImportPlan.isNew]
    · cases ex : (p.existing start).lookup gi with
      | some i => simp [rep, ex, ImportPlan.isNew, Batch.register, Batch.size]
      | none => simp [rep, ex, ImportPlan.isNew, Batch.register, Batch.push, Batch.size]

/-- New groups are placed one after the other. -/
theorem placed_foldl_addGroup (p : ImportPlan) (start : Batch) (gs : List (RowGroup × Nat)) :
    ∀ a : Assembly,
      (gs.foldl (fun a (g, gi) => addGroup p p.repeats (p.existing start) a gi g) a).placed =
        a.placed ++ ((gs.filter fun q => p.isNew start q.2).map (·.2)).zipIdx a.batch.size := by
  induction gs with
  | nil => intro a; simp
  | cons q gs ih =>
    obtain ⟨g, gi⟩ := q
    intro a
    rw [List.foldl_cons, ih]
    dsimp only
    rw [addGroup_eq]
    by_cases rep : p.isRepeat gi = true
    · simp [rep, ImportPlan.isNew]
    · cases ex : (p.existing start).lookup gi with
      | some i => simp [rep, ex, ImportPlan.isNew, Batch.register, Batch.size]
      | none =>
        simp [rep, ex, ImportPlan.isNew, Batch.register, Batch.push, Batch.size, List.zipIdx_cons]

/-- Registered positions of groups are those of stored nodes or of new ones. -/
theorem placesFrom_lt (p : ImportPlan) (stored : List Node) (gs : List (RowGroup × Nat)) :
    ∀ next : Nat, stored.length ≤ next →
      ∀ q ∈ placesFrom p (Batch.ofStored stored) next gs,
        q.2 < next + (gs.filter fun q => p.isNew (Batch.ofStored stored) q.2).length := by
  induction gs with
  | nil => intro next _ q hq; cases hq
  | cons r gs ih =>
    obtain ⟨g, gi⟩ := r
    intro next le q hq
    rw [placesFrom] at hq
    by_cases rep : p.isRepeat gi = true
    · simp only [rep, if_true] at hq
      simpa [ImportPlan.isNew, rep] using ih next le q hq
    · cases ex : (p.existing (Batch.ofStored stored)).lookup gi with
      | some i =>
        simp only [rep, ex] at hq
        have rest : ∀ q ∈ placesFrom p (Batch.ofStored stored) next gs, q.2 < next +
            (((g, gi) :: gs).filter fun q => p.isNew (Batch.ofStored stored) q.2).length := by
          intro q hq
          simpa [ImportPlan.isNew, ex] using ih next le q hq
        have below : i < stored.length := by
          rw [ImportPlan.lookup_existing] at ex
          obtain ⟨g', -, hi⟩ := Option.bind_eq_some_iff.mp ex
          rw [Batch.stored_ofStored] at hi
          simp only [rep] at hi
          exact (Batch.within_storedKeys stored).id? hi
        rcases List.mem_cons.mp hq with rfl | hq
        · exact Nat.lt_of_lt_of_le below (by omega)
        · exact rest q hq
      | none =>
        simp only [rep, ex] at hq
        have longer : (((g, gi) :: gs).filter fun q =>
            p.isNew (Batch.ofStored stored) q.2).length =
            (gs.filter fun q => p.isNew (Batch.ofStored stored) q.2).length + 1 := by
          rw [List.filter_cons, if_pos (by simpa [ImportPlan.isNew, ex] using rep),
            List.length_cons]
        rw [longer]
        rcases List.mem_cons.mp hq with rfl | hq
        · omega
        · have := ih (next + 1) (by omega) q hq
          omega

/-- All groups are registered but the repeated ones. -/
theorem map_fst_placesFrom (p : ImportPlan) (start : Batch) (gs : List (RowGroup × Nat)) :
    ∀ next : Nat, (placesFrom p start next gs).map (·.1) =
      (gs.filter fun q => !p.isRepeat q.2).map (·.1) := by
  induction gs with
  | nil => intro next; rfl
  | cons q gs ih =>
    obtain ⟨g, gi⟩ := q
    intro next
    rw [placesFrom]
    by_cases rep : p.isRepeat gi = true
    · simp [rep, ih]
    · cases ex : (p.existing start).lookup gi <;> simp [rep, ih]

/-- If all groups are new, they are registered where they are added. -/
theorem placesFrom_of_new {p : ImportPlan} {start : Batch} (gs : List (RowGroup × Nat)) :
    ∀ next : Nat, (∀ q ∈ gs, p.isNew start q.2 = true) →
      placesFrom p start next gs = (gs.map (·.1)).zipIdx next := by
  induction gs with
  | nil => intro next _; rfl
  | cons q gs ih =>
    obtain ⟨g, gi⟩ := q
    intro next new
    have here := new (g, gi) (by simp)
    rw [ImportPlan.isNew, Bool.and_eq_true, Bool.not_eq_true', Option.isNone_iff_eq_none] at here
    rw [placesFrom, here.1, here.2, ih (next + 1) fun q hq => new q (by simp [hq])]
    rfl

theorem within_foldl_groupKeys {n : Nat} (places : List (RowGroup × Nat)) : ∀ t : KeyTable,
    t.Within n → (∀ q ∈ places, q.2 < n) →
    (places.foldl (fun keys q => groupKeys q.1 q.2 keys) t).Within n := by
  induction places with
  | nil => intro t h _; exact h
  | cons q places ih =>
    intro t h below
    exact ih _ (within_groupKeys h (below q (by simp)) q.1) fun r hr => below r (by simp [hr])

end Assembly

/-! ## Batches in the making -/

namespace Batch

/-- An entry that an import adds: not stored, not linked. -/
structure IsDraft (project : String) (e : BatchEntry) : Prop where
  origin : e.origin ≠ .stored
  parent : e.parent = none
  unsaved : e.node.id = ""
  inProject : e.node.projectId = project

/-- A batch with the stored nodes and the new entries after them. The hierarchy ids of all its
    nodes are distinct, and those of the new ones are registered. -/
structure Drafted (b : Batch) (stored : List Node) (project : String) (new : List BatchEntry) :
    Prop where
  entries : b.entries = stored.map storedEntry ++ new
  stored_keys : b.stored = storedKeys stored 0
  within : b.fresh.Within b.size
  drafts : ∀ e ∈ new, IsDraft project e
  registered : ∀ e ∈ new, e.node.hierarchyId ∈ b.fresh.ids.map (·.1)
  distinct : (stored.map (·.hierarchyId) ++ new.map (·.node.hierarchyId)).Nodup

section Drafted

variable {b : Batch} {stored : List Node} {project : String} {new : List BatchEntry}

theorem Drafted.size_eq (h : b.Drafted stored project new) :
    b.size = stored.length + new.length := by
  rw [size, h.entries, List.length_append, List.length_map]

theorem Drafted.stored_within (h : b.Drafted stored project new) : b.stored.Within b.size := by
  rw [h.stored_keys, h.size_eq]
  exact (within_storedKeys stored).mono (by omega)

/-- An id that is neither registered nor stored is none of the batch. -/
theorem Drafted.fresh_id (h : b.Drafted stored project new) {key : String}
    (unregistered : b.fresh.id? key = none) (unstored : b.stored.id? key = none) :
    key ∉ stored.map (·.hierarchyId) ++ new.map (·.node.hierarchyId) := by
  rw [List.mem_append, not_or]
  constructor
  · intro mem
    have := storedKeys_id?_isSome.mpr mem
    rw [← h.stored_keys, unstored] at this
    cases this
  · intro mem
    obtain ⟨e, he, rfl⟩ := List.mem_map.mp mem
    have := lookup_isSome_iff_mem.mpr (h.registered e he)
    rw [show b.fresh.ids.lookup e.node.hierarchyId = none from unregistered] at this
    cases this

/-- Adding an entry whose hierarchy id is new, and registering it. -/
theorem Drafted.push (h : b.Drafted stored project new) {e : BatchEntry} (draft : IsDraft project e)
    (free : e.node.hierarchyId ∉ stored.map (·.hierarchyId) ++ new.map (·.node.hierarchyId))
    {f : KeyTable → KeyTable} (within : (f b.fresh).Within (b.size + 1))
    (registered : ∀ key, key ∈ (f b.fresh).ids.map (·.1) ↔
      key ∈ b.fresh.ids.map (·.1) ∨ key = e.node.hierarchyId) :
    ((b.push e).register f).Drafted stored project (new ++ [e]) where
  entries := by simp [Batch.push, register, h.entries]
  stored_keys := h.stored_keys
  within := by
    have : ((b.push e).register f).size = b.size + 1 := by simp [Batch.push, register, size]
    rw [this]
    exact within
  drafts e' he' := by
    rcases List.mem_append.mp he' with he' | he'
    · exact h.drafts e' he'
    · rw [List.mem_singleton.mp he']
      exact draft
  registered e' he' := by
    refine (registered _).mpr ?_
    rcases List.mem_append.mp he' with he' | he'
    · exact Or.inl (h.registered e' he')
    · rw [List.mem_singleton.mp he']
      exact Or.inr rfl
  distinct := by
    rw [List.map_append, ← List.append_assoc, List.map_singleton, List.nodup_append_comm,
      List.singleton_append, List.nodup_cons]
    exact ⟨free, h.distinct⟩

/-- Registering the path of a placeholder for a node of the batch. -/
theorem Drafted.addPath (h : b.Drafted stored project new) {i : Nat} (hi : i < b.size)
    (path : List String) :
    (b.register (·.addPath path i)).Drafted stored project new where
  entries := h.entries
  stored_keys := h.stored_keys
  within := h.within.addPath hi path
  drafts := h.drafts
  registered e he := by
    have same : (b.fresh.addPath path i).ids = b.fresh.ids := by
      unfold KeyTable.addPath
      split_ifs <;> rfl
    change e.node.hierarchyId ∈ (b.fresh.addPath path i).ids.map (·.1)
    rw [same]
    exact h.registered e he
  distinct := h.distinct

theorem Drafted.storedMatch?_lt (h : b.Drafted stored project new) {key : String}
    {path : List String} {name : String} {i : Nat}
    (found : b.storedMatch? key path name = some i) : i < b.size := by
  have within := h.stored_within
  rw [storedMatch?, Option.or_eq_some_iff, Option.or_eq_some_iff, Option.or_eq_some_iff] at found
  rcases found with ((found | ⟨-, found⟩) | ⟨-, found⟩) | ⟨-, found⟩
  · exact within.id? found
  · exact within.path? found
  · exact within.depthName? found
  · exact within.name? found

end Drafted

end Batch

/-! ## Placeholders -/

namespace Assembly

/-- The entry of a placeholder. -/
def placeholderEntry (project : String) (h : Placeholder) : BatchEntry :=
  ⟨h.node project, .synthesized, h.path, none, none⟩

/-- What one placeholder does to the batch: nothing if its path leads somewhere, a path if a node
    can stand for it, else a new entry. -/
theorem addPlaceholder_cases (p : ImportPlan) (b : Batch) (h : Placeholder) :
    ((b.fresh.path? h.path).isSome = true ∧ addPlaceholder p b h = b) ∨
    (∃ i, (b.fresh.path? h.path).isSome = false ∧
      (b.fresh.id? h.hierarchyId).or (b.storedMatch? h.hierarchyId h.path h.name) = some i ∧
      addPlaceholder p b h = b.register (·.addPath h.path i)) ∨
    ((b.fresh.path? h.path).isSome = false ∧ b.fresh.id? h.hierarchyId = none ∧
      b.storedMatch? h.hierarchyId h.path h.name = none ∧
      addPlaceholder p b h = (b.push (placeholderEntry p.project h)).register fun keys =>
        (keys.addId h.hierarchyId b.size).addPath h.path b.size) := by
  unfold addPlaceholder
  by_cases hp : (b.fresh.path? h.path).isSome = true
  · exact Or.inl ⟨hp, if_pos hp⟩
  · have hp' : (b.fresh.path? h.path).isSome = false := by simpa using hp
    rw [if_neg hp]
    cases hm : (b.fresh.id? h.hierarchyId).or (b.storedMatch? h.hierarchyId h.path h.name) with
    | some i => exact Or.inr (Or.inl ⟨i, hp', rfl, rfl⟩)
    | none =>
      rw [Option.or_eq_none_iff] at hm
      exact Or.inr (Or.inr ⟨hp', hm.1, hm.2, rfl⟩)

theorem ids_addPath (t : KeyTable) (path : List String) (i : Nat) :
    (t.addPath path i).ids = t.ids := by
  unfold KeyTable.addPath
  split_ifs <;> rfl

/-- A placeholder keeps the batch in order; it adds at most its own entry. -/
theorem drafted_addPlaceholder {p : ImportPlan} {b : Batch} {stored : List Node}
    {new : List BatchEntry} (hb : b.Drafted stored p.project new) (h : Placeholder) :
    (addPlaceholder p b h).Drafted stored p.project new ∨
      (addPlaceholder p b h).Drafted stored p.project (new ++ [placeholderEntry p.project h]) := by
  rcases addPlaceholder_cases p b h with ⟨-, eq⟩ | ⟨i, -, found, eq⟩ | ⟨-, noId, noMatch, eq⟩
  · rw [eq]
    exact Or.inl hb
  · rw [eq]
    refine Or.inl (hb.addPath ?_ h.path)
    rcases Option.or_eq_some_iff.mp found with found | ⟨-, found⟩
    · exact hb.within.id? found
    · exact hb.storedMatch?_lt found
  · rw [eq]
    have unstored : b.stored.id? h.hierarchyId = none := by
      rw [Batch.storedMatch?, Option.or_eq_none_iff, Option.or_eq_none_iff,
        Option.or_eq_none_iff] at noMatch
      exact noMatch.1.1.1
    refine Or.inr (hb.push ⟨by simp [placeholderEntry], rfl, rfl, rfl⟩ (hb.fresh_id noId unstored)
      ?_ ?_)
    · exact ((hb.within.mono (Nat.le_succ _)).addId (Nat.lt_succ_self _) _).addPath
        (Nat.lt_succ_self _) _
    · intro key
      rw [ids_addPath]
      simp [KeyTable.addId, placeholderEntry, Placeholder.node]

theorem drafted_foldl_addPlaceholder {p : ImportPlan} {stored : List Node}
    (hs : List Placeholder) : ∀ (b : Batch) (new : List BatchEntry),
      b.Drafted stored p.project new →
      ∃ added : List Placeholder, added.Sublist hs ∧
        (hs.foldl (addPlaceholder p) b).Drafted stored p.project
          (new ++ added.map (placeholderEntry p.project)) := by
  induction hs with
  | nil =>
    intro b new hb
    exact ⟨[], List.Sublist.refl _, by simpa using hb⟩
  | cons h hs ih =>
    intro b new hb
    rw [List.foldl_cons]
    rcases drafted_addPlaceholder hb h with hb' | hb'
    · obtain ⟨added, sub, run⟩ := ih _ _ hb'
      exact ⟨added, sub.cons h, run⟩
    · obtain ⟨added, sub, run⟩ := ih _ _ hb'
      exact ⟨h :: added, sub.cons_cons h, by simpa using run⟩

/-- Placeholders whose ids and paths are new are all added, if nothing is stored. -/
theorem foldl_addPlaceholder_new {p : ImportPlan} (hs : List Placeholder) : ∀ b : Batch,
    b.stored = {} → (b.fresh.ids.map (·.1) ++ hs.map (·.hierarchyId)).Nodup →
    (b.fresh.paths.map (·.1) ++ hs.map (·.path)).Nodup → (∀ h ∈ hs, h.path ≠ []) →
    hs.foldl (addPlaceholder p) b =
      { b with
        entries := b.entries ++ hs.map (placeholderEntry p.project)
        fresh := { b.fresh with
          ids := b.fresh.ids ++ (hs.map (·.hierarchyId)).zipIdx b.size
          paths := b.fresh.paths ++ (hs.map (·.path)).zipIdx b.size } } := by
  induction hs with
  | nil => intro b _ _ _ _; simp
  | cons h hs ih =>
    intro b empty ids paths nonempty
    rw [List.map_cons, List.nodup_middle, List.nodup_cons, List.mem_append, not_or] at ids paths
    have noId : b.fresh.id? h.hierarchyId = none := by
      rw [← Option.not_isSome_iff_eq_none, KeyTable.id?, lookup_isSome_iff_mem]
      exact ids.1.1
    have noPath : b.fresh.path? h.path = none := by
      rw [← Option.not_isSome_iff_eq_none, KeyTable.path?, lookup_isSome_iff_mem]
      exact paths.1.1
    have step : addPlaceholder p b h = { b with
        entries := b.entries ++ [placeholderEntry p.project h]
        fresh := { b.fresh with
          ids := b.fresh.ids ++ [(h.hierarchyId, b.size)]
          paths := b.fresh.paths ++ [(h.path, b.size)] } } := by
      have noMatch : b.storedMatch? h.hierarchyId h.path h.name = none := by
        rw [Batch.storedMatch?, empty]
        rfl
      rw [addPlaceholder, noPath, noId, noMatch]
      simp [Batch.register, Batch.push, KeyTable.addPath, KeyTable.addId, nonempty h (by simp),
        placeholderEntry]
    have size : (addPlaceholder p b h).size = b.size + 1 := by
      rw [step, Batch.size, List.length_append, List.length_singleton]
      rfl
    have moved : ∀ {α : Type} (xs ys : List α) (a : α), ((xs ++ [a]) ++ ys).Nodup ↔
        (a ∉ xs ∧ a ∉ ys) ∧ (xs ++ ys).Nodup := by
      intro α xs ys a
      rw [List.append_assoc, List.singleton_append, List.nodup_middle, List.nodup_cons,
        List.mem_append, not_or]
    rw [List.foldl_cons, ih (addPlaceholder p b h) (by rw [step]; exact empty) ?_ ?_
      fun h' hh' => nonempty h' (by simp [hh']), size, step]
    · simp
    · rw [step, List.map_append]
      exact (moved _ _ _).mpr ids
    · rw [step, List.map_append]
      exact (moved _ _ _).mpr paths

end Assembly

/-! ## All nodes of a plan -/

namespace ImportPlan

/-- The batch with the groups of the plan. -/
def grouped (p : ImportPlan) (stored : List Node) : Batch :=
  let start := Batch.ofStored stored
  (p.groups.zipIdx.foldl
    (fun a (g, gi) => Assembly.addGroup p p.repeats (p.existing start) a gi g)
    { batch := start }).batch

/-- The batch with the groups and the placeholders of the plan. -/
def filled (p : ImportPlan) (stored : List Node) : Batch :=
  p.placeholders.foldl (Assembly.addPlaceholder p) (p.grouped stored)

/-- The groups that are registered, with the positions of their nodes. -/
def places (p : ImportPlan) (stored : List Node) : List (RowGroup × Nat) :=
  Assembly.placesFrom p (Batch.ofStored stored) stored.length p.groups.zipIdx

theorem grouped_eq (p : ImportPlan) (stored : List Node) :
    p.grouped stored =
      { entries := stored.map Batch.storedEntry ++
          (p.newGroups (Batch.ofStored stored)).map (Assembly.groupEntry p.project)
        fresh := (p.places stored).foldl (fun keys q => Assembly.groupKeys q.1 q.2 keys) {}
        stored := Batch.storedKeys stored 0 } := by
  rw [grouped]
  dsimp only
  rw [Assembly.foldl_addGroup]
  simp only [Batch.entries_ofStored, Batch.fresh_ofStored, Batch.stored_ofStored,
    Batch.size_ofStored]
  rfl

/-- The hierarchy ids of new groups are not stored. -/
theorem unstored_newGroups (p : ImportPlan) {stored : List Node} {q : RowGroup × Nat}
    (mem : q ∈ p.newGroups (Batch.ofStored stored)) :
    q.1.hierarchyId ∉ stored.map (·.hierarchyId) := by
  intro taken
  obtain ⟨-, -, unstored⟩ := (p.mem_newGroups_iff _).mp mem
  rw [← Batch.storedKeys_id?_isSome, ← Batch.stored_ofStored, unstored] at taken
  cases taken

theorem drafted_grouped (p : ImportPlan) {stored : List Node}
    (distinct : (stored.map (·.hierarchyId)).Nodup) :
    (p.grouped stored).Drafted stored p.project
      ((p.newGroups (Batch.ofStored stored)).map (Assembly.groupEntry p.project)) := by
  have below := Assembly.placesFrom_lt p stored p.groups.zipIdx stored.length (Nat.le_refl _)
  rw [grouped_eq]
  refine ⟨rfl, rfl, ?_, ?_, ?_, ?_⟩
  · refine Assembly.within_foldl_groupKeys _ _ (KeyTable.within_empty _) ?_
    simpa [Batch.size, newGroups, places] using below
  · intro e he
    obtain ⟨q, -, rfl⟩ := List.mem_map.mp he
    exact ⟨by simp [Assembly.groupEntry], rfl, rfl, rfl⟩
  · intro e he
    obtain ⟨⟨g, gi⟩, hq, rfl⟩ := List.mem_map.mp he
    obtain ⟨hg, rep, -⟩ := (p.mem_newGroups_iff _).mp hq
    have placed : g ∈ (p.places stored).map (·.1) := by
      rw [places, Assembly.map_fst_placesFrom, List.mem_map]
      exact ⟨(g, gi), List.mem_filter.mpr
        ⟨List.mem_zipIdx_iff_getElem?.mpr hg, by simp [rep]⟩, rfl⟩
    obtain ⟨r, hr, hrg⟩ := List.mem_map.mp placed
    simp only [Assembly.foldl_groupKeys, List.nil_append, List.map_map]
    exact List.mem_map.mpr ⟨r, hr, by rw [Function.comp_apply, hrg]; rfl⟩
  · rw [List.map_map]
    refine List.nodup_append.mpr ⟨distinct, p.nodup_newGroups _, ?_⟩
    rintro h hh h' hh' rfl
    obtain ⟨q, hq, rfl⟩ := List.mem_map.mp hh'
    exact p.unstored_newGroups hq hh

theorem drafted_filled (p : ImportPlan) {stored : List Node}
    (distinct : (stored.map (·.hierarchyId)).Nodup) :
    ∃ added : List Placeholder, added.Sublist p.placeholders ∧
      (p.filled stored).Drafted stored p.project
        ((p.newGroups (Batch.ofStored stored)).map (Assembly.groupEntry p.project) ++
          added.map (Assembly.placeholderEntry p.project)) :=
  Assembly.drafted_foldl_addPlaceholder p.placeholders _ _ (p.drafted_grouped distinct)

end ImportPlan

end Rollup

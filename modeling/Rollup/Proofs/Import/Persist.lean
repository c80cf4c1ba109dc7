import Mathlib.Data.List.Basic
import Rollup.Import.Persist
import Rollup.Proofs.Store.Writes

/-!
# What storing a batch does

A batch lists the stored nodes first and the new ones after them. If the new nodes have hierarchy
ids of their own and their parents are in the batch, then every one of them is stored, under a
fresh storage id and below its parent, and nothing is reported.

Results:

* `foldl_createOne`: the first pass stores all new nodes as roots.
* `foldl_linkOne`: the second pass puts each of them below its parent.
* `persist_eq`: the store and the counts after both passes.
-/

namespace Rollup

/-! ## Entries on their way into the store -/

/-- The entry after its node has been created as a root under a storage id. -/
def BatchEntry.named (e : BatchEntry) (id : String) : BatchEntry :=
  { e with node := { e.node.withParent none with id := id } }

/-- The node that is stored in the end for an entry: under its id, and below the parent whose
    storage id stands at the parent's position in `ids`. -/
def BatchEntry.saved (ids : List String) (e : BatchEntry) (id : String) : Node :=
  { (e.node.withParent (e.parent.bind (ids[·]?))).kept with id := id }

@[simp] theorem BatchEntry.named_id (e : BatchEntry) (id : String) : (e.named id).node.id = id := rfl
@[simp] theorem BatchEntry.named_origin (e : BatchEntry) (id : String) :
    (e.named id).origin = e.origin := rfl
@[simp] theorem BatchEntry.named_parent (e : BatchEntry) (id : String) :
    (e.named id).parent = e.parent := rfl
@[simp] theorem BatchEntry.named_hierarchyId (e : BatchEntry) (id : String) :
    (e.named id).node.hierarchyId = e.node.hierarchyId := rfl
@[simp] theorem BatchEntry.named_projectId (e : BatchEntry) (id : String) :
    (e.named id).node.projectId = e.node.projectId := rfl
@[simp] theorem BatchEntry.named_withParent_none (e : BatchEntry) (id : String) :
    (e.named id).node.withParent none = (e.named id).node := rfl

@[simp] theorem BatchEntry.saved_id (ids : List String) (e : BatchEntry) (id : String) :
    (e.saved ids id).id = id := rfl
@[simp] theorem BatchEntry.saved_hierarchyId (ids : List String) (e : BatchEntry) (id : String) :
    (e.saved ids id).hierarchyId = e.node.hierarchyId := rfl
@[simp] theorem BatchEntry.saved_projectId (ids : List String) (e : BatchEntry) (id : String) :
    (e.saved ids id).projectId = e.node.projectId := rfl
@[simp] theorem BatchEntry.saved_parentId (ids : List String) (e : BatchEntry) (id : String) :
    (e.saved ids id).parentId = e.parent.bind (ids[·]?) := rfl
@[simp] theorem BatchEntry.saved_isRoot (ids : List String) (e : BatchEntry) (id : String) :
    (e.saved ids id).isRoot = (e.parent.bind (ids[·]?)).isNone := rfl

/-! ## The first pass -/

theorem modify_at_length {α : Type} (f : α → α) (before : List α) (a : α) (after : List α) :
    (before ++ a :: after).modify before.length f = before ++ f a :: after := by
  induction before with
  | nil => rfl
  | cons b before ih => simp [ih]

namespace Persisting

/-- Creating the node at the head of what is left to do. -/
theorem createOne_eq (groups : List RowGroup) {project : String} {p : Persisting}
    {before after : List BatchEntry} {e : BatchEntry}
    (split : p.batch.entries = before ++ e :: after) (unsaved : e.node.id = "")
    (inProject : e.node.projectId = project) (known : p.store.hasProject project = true)
    (free : e.node.hierarchyId ∉ (p.store.nodesOf project).map (·.hierarchyId)) :
    createOne .permissive groups p before.length =
      { p with
        store := { p.store with nodes := p.store.nodes ++ [(e.named p.store.freshId).node.kept] }
        batch := { p.batch with entries := before ++ e.named p.store.freshId :: after }
        created := p.created ++ [before.length] } := by
  have here : p.batch.entries[before.length]? = some e := by simp [split]
  have created := Store.create_unsaved (s := p.store) (n := e.node.withParent none) unsaved
    (by simpa [inProject] using free) (by simpa [inProject] using known)
  simp only [createOne, here, Store.guardedCreate, WriteGuard.permissive, created]
  simp only [Batch.modify, split, modify_at_length]
  rfl

/-- The first pass: all new nodes are stored as roots, under distinct fresh ids. -/
theorem foldl_createOne (groups : List RowGroup) {project : String} (todo : List BatchEntry) :
    ∀ (before : List BatchEntry) (p : Persisting), p.batch.entries = before ++ todo →
      (∀ e ∈ todo, e.node.id = "") → (∀ e ∈ todo, e.node.projectId = project) →
      p.store.hasProject project = true →
      ((p.store.nodesOf project).map (·.hierarchyId) ++ todo.map (·.node.hierarchyId)).Nodup →
      ∃ ids : List String, ids.length = todo.length ∧ ids.Nodup ∧
        (∀ id ∈ ids, id ≠ "" ∧ id ∉ p.store.nodes.map (·.id)) ∧
        (List.range' before.length todo.length).foldl (createOne .permissive groups) p =
          { p with
            store := { p.store with
              nodes := p.store.nodes ++ (todo.zip ids).map fun q => (q.1.named q.2).node.kept }
            batch := { p.batch with
              entries := before ++ (todo.zip ids).map fun q => q.1.named q.2 }
            created := p.created ++ List.range' before.length todo.length } := by
  induction todo with
  | nil =>
    intro before p split _ _ _ _
    refine ⟨[], rfl, List.nodup_nil, by simp, ?_⟩
    simp only [List.append_nil] at split
    simp [← split]
  | cons e todo ih =>
    intro before p split unsaved inProject known distinct
    have free : e.node.hierarchyId ∉ (p.store.nodesOf project).map (·.hierarchyId) := by
      rw [List.map_cons, List.nodup_middle, List.nodup_cons, List.mem_append] at distinct
      exact fun h => distinct.1 (Or.inl h)
    have step := createOne_eq groups split (unsaved e (by simp))
      (inProject e (by simp)) known free
    set id := p.store.freshId with hid
    set q := createOne .permissive groups p before.length with hq
    have storeOf : q.store.nodesOf project = p.store.nodesOf project ++ [(e.named id).node.kept] := by
      rw [step]
      simp [Store.nodesOf, inProject e (by simp)]
    obtain ⟨ids, length, nodup, freshIds, run⟩ := ih (before ++ [e.named id]) q
      (by rw [step]; simp) (fun e' he' => unsaved e' (by simp [he']))
      (fun e' he' => inProject e' (by simp [he'])) (by rw [step]; exact known)
      (by rw [storeOf]; simpa using distinct)
    have fresh : ∀ i ∈ ids, i ≠ "" ∧ i ∉ p.store.nodes.map (·.id) ∧ i ≠ id := by
      intro i hi
      obtain ⟨h1, h2⟩ := freshIds i hi
      rw [step] at h2
      simp only [List.map_append, List.mem_append, not_or] at h2
      exact ⟨h1, h2.1, by simpa using h2.2⟩
    refine ⟨id :: ids, by simp [length], ?_, ?_, ?_⟩
    · rw [List.nodup_cons]
      exact ⟨fun h => (fresh id h).2.2 rfl, nodup⟩
    · intro i hi
      rcases List.mem_cons.mp hi with rfl | hi
      · exact ⟨hid ▸ p.store.freshId_ne_empty, hid ▸ p.store.freshId_notMem_ids⟩
      · exact ⟨(fresh i hi).1, (fresh i hi).2.1⟩
    · rw [List.length_append, List.length_singleton] at run
      rw [List.length_cons, List.range'_succ, List.foldl_cons, ← hq, run, step]
      simp

/-! ## The second pass -/

/-- The node of an entry below its parent, if it has one in the batch. -/
def linkedNode (entries : List BatchEntry) (e : BatchEntry) : Node :=
  (e.node.withParent ((e.parent.bind (entries[·]?)).map (·.node.id))).kept

/-- Linking the node at the head of what is left to do. -/
theorem linkOne_eq (groups : List RowGroup) {project : String} {p : Persisting}
    {before after : List BatchEntry} {e : BatchEntry} {head : List Node} (tail : List Node)
    (split : p.batch.entries = before ++ e :: after)
    (nodes : p.store.nodes = head ++ e.node.kept :: tail)
    (root : e.node.withParent none = e.node) (inProject : e.node.projectId = project)
    (named : ∀ e' ∈ p.batch.entries, e'.node.id ≠ "")
    (ids : (p.store.nodes.map (·.id)).Nodup)
    (keys : ((p.store.nodesOf project).map (·.hierarchyId)).Nodup) :
    linkOne .permissive groups p before.length =
      { p with store := { p.store with
          nodes := head ++ linkedNode p.batch.entries e :: tail } } := by
  have here : p.batch.entries[before.length]? = some e := by simp [split]
  have mem : e.node.kept ∈ p.store.nodesOf project := by
    rw [Store.mem_nodesOf, nodes]
    exact ⟨by simp, inProject⟩
  cases parent : e.parent.bind (p.batch.entries[·]?) with
  | none =>
    have unchanged : linkedNode p.batch.entries e = e.node.kept := by
      rw [linkedNode, parent, Option.map_none, root]
    rw [unchanged, ← nodes]
    simp only [linkOne, here, parent]
  | some f =>
    have stored : f.node.id ≠ "" := by
      obtain ⟨q, -, hq⟩ := Option.bind_eq_some_iff.mp parent
      exact named f (List.mem_of_getElem? hq)
    have free : ∀ m ∈ p.store.nodesOf e.node.kept.projectId,
        m.hierarchyId = (e.node.withParent (some f.node.id)).hierarchyId →
        m.id = (e.node.withParent (some f.node.id)).id := by
      intro m hm h
      rw [Node.kept_projectId, inProject] at hm
      rw [List.inj_on_of_nodup_map keys hm mem h]
      rfl
    have updated := Store.update_between (n := e.node.withParent (some f.node.id)) nodes rfl ids free
    have linked : linkedNode p.batch.entries e = (e.node.withParent (some f.node.id)).kept := by
      rw [linkedNode, parent, Option.map_some]
    rw [linked]
    simp only [linkOne, here, parent, if_neg stored, Store.guardedUpdate, WriteGuard.permissive,
      updated]
    rfl

/-- The second pass: each new node is put below its parent. -/
theorem foldl_linkOne (groups : List RowGroup) (project : String) (todo : List BatchEntry) :
    ∀ (before : List BatchEntry) (head : List Node) (p : Persisting),
      p.batch.entries = before ++ todo → p.store.nodes = head ++ todo.map (·.node.kept) →
      (∀ e ∈ todo, e.node.withParent none = e.node) →
      (∀ e ∈ todo, e.node.projectId = project) → (∀ e ∈ p.batch.entries, e.node.id ≠ "") →
      (p.store.nodes.map (·.id)).Nodup →
      ((p.store.nodesOf project).map (·.hierarchyId)).Nodup →
      (List.range' before.length todo.length).foldl (linkOne .permissive groups) p =
        { p with store := { p.store with
            nodes := head ++ todo.map (linkedNode p.batch.entries) } } := by
  induction todo with
  | nil =>
    intro before head p _ nodes _ _ _ _ _
    simp only [List.map_nil, List.append_nil] at nodes ⊢
    simp [← nodes]
  | cons e todo ih =>
    intro before head p split nodes root inProject named ids keys
    have step := linkOne_eq groups (todo.map (·.node.kept)) split
      (by simpa using nodes) (root e (by simp)) (inProject e (by simp)) named ids keys
    have sameId : (linkedNode p.batch.entries e).id = e.node.kept.id := rfl
    have sameKey : (linkedNode p.batch.entries e).hierarchyId = e.node.kept.hierarchyId := rfl
    have sameProject : (linkedNode p.batch.entries e).projectId = e.node.kept.projectId := rfl
    have run := ih (before ++ [e]) (head ++ [linkedNode p.batch.entries e])
      (linkOne .permissive groups p before.length)
      (by rw [step]; simp [split]) (by rw [step]; simp)
      (fun e' he' => root e' (by simp [he'])) (fun e' he' => inProject e' (by simp [he']))
      (by rw [step]; exact named)
      (by rw [step]; rw [nodes] at ids; simpa [sameId] using ids)
      (by
        rw [step]
        simp only [Store.nodesOf, nodes] at keys ⊢
        simpa [List.filter_cons, sameProject, apply_ite, sameKey] using keys)
    rw [List.length_append, List.length_singleton] at run
    rw [List.length_cons, List.range'_succ, List.foldl_cons, run, step]
    simp

/-- The positions from `before.length` on whose entries have an origin are as many as there are
    such entries. -/
theorem countP_range' (o : Origin) (todo : List BatchEntry) : ∀ before : List BatchEntry,
    (List.range' before.length todo.length).countP
      (fun i => (((before ++ todo)[i]?).map (·.origin)) == some o) =
      todo.countP (·.origin == o) := by
  induction todo with
  | nil => intro before; rfl
  | cons e todo ih =>
    intro before
    have rest := ih (before ++ [e])
    rw [List.length_append, List.length_singleton, List.append_assoc, List.singleton_append] at rest
    rw [List.length_cons, List.range'_succ, List.countP_cons, rest, List.countP_cons]
    simp

end Persisting

/-! ## Both passes -/

/-- A batch that can be stored: the stored nodes in front, and after them new nodes of one stored
    project with hierarchy ids of their own, whose parents are in the batch. -/
structure Batch.Storable (b : Batch) (s : Store) (project : String) (old new : List BatchEntry) :
    Prop where
  entries : b.entries = old ++ new
  old_stored : ∀ e ∈ old, e.origin = .stored
  new_fresh : ∀ e ∈ new, e.origin ≠ .stored
  old_named : ∀ e ∈ old, e.node.id ≠ ""
  new_unsaved : ∀ e ∈ new, e.node.id = ""
  new_inProject : ∀ e ∈ new, e.node.projectId = project
  known : s.hasProject project = true
  ids : (s.nodes.map (·.id)).Nodup
  keys : ((s.nodesOf project).map (·.hierarchyId) ++ new.map (·.node.hierarchyId)).Nodup

namespace Batch

theorem newPositions_eq {b : Batch} {old new : List BatchEntry} (entries : b.entries = old ++ new)
    (stored : ∀ e ∈ old, e.origin = .stored) (fresh : ∀ e ∈ new, e.origin ≠ .stored) :
    b.newPositions = List.range' old.length new.length := by
  have none_old : old.zipIdx.filter (·.1.origin != .stored) = [] := by
    rw [List.filter_eq_nil_iff]
    intro p hp
    simp [stored p.1 (List.fst_mem_of_mem_zipIdx hp)]
  have all_new : (new.zipIdx old.length).filter (·.1.origin != .stored) =
      new.zipIdx old.length := by
    rw [List.filter_eq_self]
    intro p hp
    simpa using fresh p.1 (List.fst_mem_of_mem_zipIdx hp)
  unfold newPositions
  rw [entries, List.zipIdx_append, List.filter_append, Nat.zero_add, none_old, all_new,
    List.nil_append, List.zipIdx_map_snd]

/-- The new entries after the first pass. -/
def namedEntries (new : List BatchEntry) (ids : List String) : List BatchEntry :=
  (new.zip ids).map fun q => q.1.named q.2

section NamedEntries

variable {new : List BatchEntry} {ids : List String}

theorem mem_namedEntries {e : BatchEntry} (h : e ∈ namedEntries new ids) :
    ∃ e' ∈ new, ∃ id ∈ ids, e = e'.named id := by
  obtain ⟨q, hq, rfl⟩ := List.mem_map.mp h
  exact ⟨q.1, (List.of_mem_zip hq).1, q.2, (List.of_mem_zip hq).2, rfl⟩

theorem map_id_namedEntries (length : ids.length = new.length) :
    (namedEntries new ids).map (·.node.id) = ids := by
  rw [namedEntries, List.map_map]
  exact List.map_snd_zip (by omega)

/-- What naming leaves alone is the same before and after the first pass. -/
theorem map_namedEntries {α : Type} {f : BatchEntry → α} (stays : ∀ e id, f (e.named id) = f e)
    (length : ids.length = new.length) : (namedEntries new ids).map f = new.map f := by
  have names : new = (new.zip ids).map (·.1) := (List.map_fst_zip (by omega)).symm
  nth_rewrite 2 [names]
  rw [namedEntries, List.map_map, List.map_map]
  exact List.map_congr_left fun q _ => stays q.1 q.2

theorem map_linkedNode (old : List BatchEntry) (length : ids.length = new.length) :
    (namedEntries new ids).map (Persisting.linkedNode (old ++ namedEntries new ids)) =
      (new.zip ids).map fun q => q.1.saved (old.map (·.node.id) ++ ids) q.2 := by
  have idAt : ∀ i : Nat, ((old ++ namedEntries new ids)[i]?).map (·.node.id) =
      (old.map (·.node.id) ++ ids)[i]? := by
    intro i
    rw [← List.getElem?_map, List.map_append, map_id_namedEntries length]
  nth_rewrite 2 [namedEntries]
  rw [List.map_map]
  refine List.map_congr_left fun q _ => ?_
  have parent : ((q.1.named q.2).parent.bind ((old ++ namedEntries new ids)[·]?)).map (·.node.id) =
      q.1.parent.bind ((old.map (·.node.id) ++ ids)[·]?) := by
    rw [Option.map_bind, BatchEntry.named_parent]
    exact congrArg _ (funext idAt)
  rw [Function.comp, Persisting.linkedNode, parent]
  rfl

/-- Naming does not change how many entries have an origin. -/
theorem countP_origin_namedEntries (length : ids.length = new.length) (o : Origin) :
    (namedEntries new ids).countP (·.origin == o) = new.countP (·.origin == o) := by
  have origins := map_namedEntries (f := BatchEntry.origin) (fun _ _ => rfl) length
  have same := congrArg (List.countP (· == o)) origins
  rw [List.countP_map, List.countP_map] at same
  exact same

end NamedEntries

/-! ## The store between the passes -/

section Between

variable {b : Batch} {s : Store} {project : String} {old new : List BatchEntry}
  (h : b.Storable s project old new) {ids : List String}

/-- A store after the first pass. -/
def afterCreating (s : Store) (new : List BatchEntry) (ids : List String) : Store :=
  { s with nodes := s.nodes ++ (namedEntries new ids).map (·.node.kept) }

include h

theorem inProject_namedEntries : ∀ e ∈ namedEntries new ids, e.node.projectId = project := by
  intro e he
  obtain ⟨e', he', id, -, rfl⟩ := mem_namedEntries he
  exact h.new_inProject e' he'

theorem nodup_ids_afterCreating (length : ids.length = new.length) (nodup : ids.Nodup)
    (fresh : ∀ id ∈ ids, id ∉ s.nodes.map (·.id)) :
    ((afterCreating s new ids).nodes.map (·.id)).Nodup := by
  have added : ((namedEntries new ids).map (·.node.kept)).map (·.id) = ids := by
    rw [List.map_map]
    exact map_id_namedEntries length
  rw [afterCreating, List.map_append, added]
  refine List.nodup_append.mpr ⟨h.ids, nodup, ?_⟩
  rintro a ha c hc rfl
  exact fresh a hc ha

theorem nodup_keys_afterCreating (length : ids.length = new.length) :
    (((afterCreating s new ids).nodesOf project).map (·.hierarchyId)).Nodup := by
  have inside : ((namedEntries new ids).map (·.node.kept)).filter (·.projectId == project) =
      (namedEntries new ids).map (·.node.kept) := by
    rw [List.filter_eq_self]
    intro m hm
    obtain ⟨e, he, rfl⟩ := List.mem_map.mp hm
    simpa using inProject_namedEntries h e he
  have keys := h.keys
  rw [← map_namedEntries (f := fun e => e.node.hierarchyId) (fun _ _ => rfl) length] at keys
  rw [afterCreating, Store.nodesOf, List.filter_append, inside, List.map_append, List.map_map]
  exact keys

end Between

/-- Storing a batch stores every new node, under a fresh id and below its parent. -/
theorem persist_eq {b : Batch} {s : Store} {project : String} {old new : List BatchEntry}
    (h : b.Storable s project old new) (groups : List RowGroup) :
    ∃ ids : List String, ids.length = new.length ∧ ids.Nodup ∧
      (∀ id ∈ ids, id ≠ "" ∧ id ∉ s.nodes.map (·.id)) ∧
      b.persist .permissive groups s =
        ({ s with nodes := s.nodes ++
            (new.zip ids).map fun q => q.1.saved (old.map (·.node.id) ++ ids) q.2 },
          { imported := new.countP (·.origin == .imported)
            synthesized := new.countP (·.origin == .synthesized) }) := by
  obtain ⟨ids, length, nodup, fresh, created⟩ := Persisting.foldl_createOne groups new old
    { store := s, batch := b } h.entries h.new_unsaved h.new_inProject h.known h.keys
  refine ⟨ids, length, nodup, fresh, ?_⟩
  set named := namedEntries new ids with hnamed
  have namedLength : named.length = new.length := by simp [hnamed, namedEntries, length]
  -- the state between the two passes
  set p : Persisting := ⟨afterCreating s new ids, { b with entries := old ++ named },
    List.range' old.length new.length, {}⟩ with hp
  have start : b.newPositions.foldl (Persisting.createOne .permissive groups)
      { store := s, batch := b } = p := by
    rw [newPositions_eq h.entries h.old_stored h.new_fresh, created, hp, afterCreating, hnamed,
      namedEntries, List.map_map]
    rfl
  have stored : ∀ e ∈ old ++ named, e.node.id ≠ "" := by
    intro e he
    rcases List.mem_append.mp he with he | he
    · exact h.old_named e he
    · obtain ⟨e', -, id, hid, rfl⟩ := mem_namedEntries he
      exact (fresh id hid).1
  have roots : ∀ e ∈ named, e.node.withParent none = e.node := by
    intro e he
    obtain ⟨e', -, id, -, rfl⟩ := mem_namedEntries he
    rfl
  have run := Persisting.foldl_linkOne groups project named old s.nodes p rfl rfl roots
    (inProject_namedEntries h) stored
    (nodup_ids_afterCreating h length nodup fun id hid => (fresh id hid).2)
    (nodup_keys_afterCreating h length)
  have counts : ∀ o, (List.range' old.length new.length).countP
      (fun i => (((old ++ named)[i]?).map (·.origin)) == some o) =
      new.countP (·.origin == o) := by
    intro o
    rw [← namedLength, Persisting.countP_range' o named old]
    exact countP_origin_namedEntries length o
  rw [namedLength] at run
  simp only [persist, start, show p.created = List.range' old.length new.length from rfl, run,
    Persisting.count, counts, show p.batch.entries = old ++ named from rfl]
  rw [hnamed, map_linkedNode old length]
  rfl

end Batch

end Rollup

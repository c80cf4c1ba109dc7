import Mathlib.Data.List.Basic
import Mathlib.Tactic.SplitIfs
import Rollup.Import
import Rollup.Proofs.Import.Persist
import Rollup.Proofs.Import.Totals
import Rollup.Proofs.RowGroup.Labels

/-!
# What an import stores

The outcome of an import in terms of its plan: every new group and every placeholder that is added
becomes one stored node, whose place in the tree is given by the links of the batch of nodes. This
holds for every file, as long as the storage ids and the hierarchy ids stored before are distinct.

Results:

* `rows_outcome`: the store and the summary after an import.
* `table_eq`: an import of a table is one of the rows that can be read.
* `tableIn_alike`: the order in which repeated labels are searched decides at most which group a warning
  names.
-/

namespace Rollup

/-- A node as it is stored, up to its formula and its total: under a storage id, below a parent,
    and marked as a leaf or not. -/
def Node.storedAs (n : Node) (id : String) (parent : Option String) (leaf : Bool) : Node :=
  { n.outline with
    id := id
    parentId := parent
    isRoot := parent.isNone
    flags := { n.flags with leaf := leaf }
    metadata := Value.keptFields n.metadata }

theorem Node.storedAs_congr {m n : Node} (same : m.outline = n.outline) (id : String)
    (parent : Option String) (leaf : Bool) : m.storedAs id parent leaf = n.storedAs id parent leaf :=
  congrArg (fun o : Node => { o with
    id := id, parentId := parent, isRoot := parent.isNone, flags := { o.flags with leaf := leaf },
    metadata := Value.keptFields o.metadata }) same

theorem Node.outline_kept (n : Node) :
    n.kept.outline = { n.outline with metadata := Value.keptFields n.metadata } := by
  have eq : n.kept.outline = { n with
      formula := none
      filter := some { groups := n.kept.filterGroups }
      metadata := Value.keptFields n.metadata } := rfl
  rw [eq, filterGroups_kept]
  rfl

namespace ImportPlan

/-! ## The finished batch -/

/-- The entries that a plan adds to a batch of stored nodes. -/
def drafts (p : ImportPlan) (stored : List Node) (added : List Placeholder) : List BatchEntry :=
  (p.newGroups (Batch.ofStored stored)).map (Assembly.groupEntry p.project) ++
    added.map (Assembly.placeholderEntry p.project)

/-- The links of the batch of a plan. -/
def links (p : ImportPlan) (stored : List Node) : Nat → Option Nat :=
  (p.filled stored).links p.dialect p.groups

/-- Whether the new node at a position is stored as a leaf: as its row says if the file marks
    leaves, else exactly if no new node is linked below it. -/
def leafMark (p : ImportPlan) (stored : List Node) (marks : Bool) (i : Nat) (leaf : Bool) : Bool :=
  if marks then leaf
  else !((p.filled stored).newPositions.filterMap (p.links stored)).contains i

/-- An entry of the batch after linking and marking. -/
def finishedEntry (p : ImportPlan) (stored : List Node) (marks : Bool) (i : Nat) (e : BatchEntry) :
    BatchEntry :=
  { e with
    parent := p.links stored i
    node := if e.origin = .stored then e.node else
      { e.node with flags := { e.node.flags with
          leaf := p.leafMark stored marks i e.node.flags.leaf } } }

/-- The batch that is stored. -/
def finished (p : ImportPlan) (stored : List Node) (marks : Bool) : Batch :=
  let linked := ((p.assemble stored).1.link p.dialect p.groups).1
  if marks then linked else linked.markLeaves

/-- The keys of a batch lead to its positions. -/
theorem lt_of_reaches {b : Batch} {stored : List Node} {project : String} {new : List BatchEntry}
    (h : b.Drafted stored project new) {q : Nat} (reached : b.Reaches q) : q < b.size := by
  have fresh := h.within
  have kept := h.stored_within
  rcases reached with ⟨key, found⟩ | ⟨id, found⟩ | ⟨path, found⟩ | ⟨depth, name, found⟩
  · exact (Option.or_eq_some_iff.mp found).elim fresh.xref? fun found => kept.xref? found.2
  · exact (Option.or_eq_some_iff.mp found).elim fresh.id? fun found => kept.id? found.2
  · exact (Option.or_eq_some_iff.mp found).elim fresh.path? fun found => kept.path? found.2
  · exact (Option.or_eq_some_iff.mp found).elim fresh.depthName? fun found =>
      kept.depthName? found.2

theorem proposal_lt {b : Batch} {stored : List Node} {project : String} {new : List BatchEntry}
    (h : b.Drafted stored project new) (d : Dialect) (groups : List RowGroup) {i q : Nat}
    (found : b.proposal d groups i = some q) : q < b.size := by
  obtain ⟨e, -, found⟩ := Option.bind_eq_some_iff.mp found
  exact lt_of_reaches h (Batch.reaches_proposedParent found)

section Finished

variable {p : ImportPlan} {stored : List Node} {added : List Placeholder}

/-- The links of a plan are proposed ones, and every climb ends. -/
theorem linksOk (drafted : (p.filled stored).Drafted stored p.project (p.drafts stored added)) :
    (p.filled stored).LinksOk p.dialect p.groups (p.links stored) :=
  Batch.linksOk_links fun _ _ h => proposal_lt drafted _ _ h

theorem newPositions_filled
    (drafted : (p.filled stored).Drafted stored p.project (p.drafts stored added)) :
    (p.filled stored).newPositions =
      List.range' stored.length (p.drafts stored added).length := by
  have positions := Batch.newPositions_eq drafted.entries
    (by
      intro e he
      obtain ⟨n, -, rfl⟩ := List.mem_map.mp he
      rfl)
    fun e he => (drafted.drafts e he).origin
  rw [positions, List.length_map]

/-- No node of the batch of a plan is linked yet. -/
theorem unlinked_assemble (distinct : (stored.map (·.hierarchyId)).Nodup)
    (drafted : (p.filled stored).Drafted stored p.project (p.drafts stored added)) :
    ∀ e ∈ (p.assemble stored).1.entries, e.parent = none := by
  intro e he
  have parents := (p.agrees_assemble distinct).map_eq (·.parent) fun _ => rfl
  have mem : e.parent ∈ (p.filled stored).entries.map (·.parent) := by
    rw [← parents]
    exact List.mem_map_of_mem he
  obtain ⟨f, hf, same⟩ := List.mem_map.mp mem
  rw [drafted.entries] at hf
  rw [← same]
  rcases List.mem_append.mp hf with hf | hf
  · obtain ⟨n, -, rfl⟩ := List.mem_map.mp hf
    rfl
  · exact (drafted.drafts f hf).parent

theorem finished_entries (distinct : (stored.map (·.hierarchyId)).Nodup)
    (drafted : (p.filled stored).Drafted stored p.project (p.drafts stored added)) (marks : Bool) :
    (p.finished stored marks).entries =
      (p.assemble stored).1.entries.mapIdx (p.finishedEntry stored marks) := by
  have agrees := p.agrees_assemble distinct
  have linked : ((p.assemble stored).1.link p.dialect p.groups).1 =
      (p.assemble stored).1.withParents (p.links stored) := by
    rw [Batch.link_eq (unlinked_assemble distinct drafted), Batch.links_congr agrees]
    rfl
  have parents : ((p.assemble stored).1.withParents (p.links stored)).parent? = p.links stored := by
    refine Batch.parent?_withParents fun i q h => ?_
    rw [agrees.size_eq]
    exact Batch.lt_size_of_proposal ((linksOk drafted).proposed i q h)
  have positions : ((p.assemble stored).1.withParents (p.links stored)).newPositions =
      (p.filled stored).newPositions := by
    have origins : ((p.assemble stored).1.withParents (p.links stored)).entries.map (·.origin) =
        (p.assemble stored).1.entries.map (·.origin) := by
      refine List.ext_getElem? fun i => ?_
      rw [List.getElem?_map, Batch.getElem?_withParents, Option.map_map, List.getElem?_map]
      rfl
    rw [← agrees.newPositions_eq, Batch.newPositions_eq_of_origins,
      Batch.newPositions_eq_of_origins, origins]
  unfold finished
  dsimp only
  rw [linked]
  refine List.ext_getElem? fun i => ?_
  cases marks with
  | true =>
    rw [if_pos rfl, Batch.getElem?_withParents, List.getElem?_mapIdx]
    congr 1
    funext e
    simp [finishedEntry, leafMark]
  | false =>
    rw [if_neg (by simp), Batch.markLeaves, positions, parents, List.getElem?_map,
      List.getElem?_zipIdx, Batch.getElem?_withParents, List.getElem?_mapIdx]
    cases (p.assemble stored).1.entries[i]? with
    | none => rfl
    | some e =>
      simp only [Option.map_some, Nat.zero_add, finishedEntry, leafMark, Bool.false_eq_true,
        if_false]
      split_ifs <;> rfl

end Finished

/-! ## The outcome -/

/-- What a plan stores: a list of new nodes, one for each new group and each added placeholder, under
    fresh ids. Each node is linked to the node at the position that its link names. -/
structure Outcome (p : ImportPlan) (stored : List Node) (marks : Bool) (added : List Placeholder)
    (ids : List String) (made : List Node) : Prop where
  sublist : added.Sublist p.placeholders
  drafted : (p.filled stored).Drafted stored p.project (p.drafts stored added)
  length : ids.length = (p.drafts stored added).length
  nodup : ids.Nodup
  made_eq : made.map Node.outline = ((p.drafts stored added).zip ids).mapIdx fun k q =>
    q.1.node.storedAs q.2
      ((p.links stored (k + stored.length)).bind ((stored.map (·.id) ++ ids)[·]?))
      (p.leafMark stored marks (k + stored.length) q.1.node.flags.leaf)
  closed : ∀ m ∈ made, m.ChildrenIn (p.nodeIds stored)
  saved : made = ((((p.assemble stored).1.entries.drop stored.length).mapIdx fun k =>
    p.finishedEntry stored marks (k + stored.length)).zip ids).map fun q =>
      q.1.saved (stored.map (·.id) ++ ids) q.2

section Outcome

variable {p : ImportPlan} {stored : List Node} {marks : Bool} {added : List Placeholder}
  {ids : List String} {made : List Node}

theorem Outcome.length_made (h : p.Outcome stored marks added ids made) :
    made.length = (p.drafts stored added).length := by
  have := congrArg List.length h.made_eq
  simpa [h.length] using this

/-- The node that is stored for a draft. -/
theorem Outcome.made_at (h : p.Outcome stored marks added ids made) {k : Nat} {m : Node}
    (hm : made[k]? = some m) :
    ∃ e id, (p.drafts stored added)[k]? = some e ∧ ids[k]? = some id ∧
      m.outline = e.node.storedAs id
        ((p.links stored (k + stored.length)).bind ((stored.map (·.id) ++ ids)[·]?))
        (p.leafMark stored marks (k + stored.length) e.node.flags.leaf) := by
  have bound : k < made.length := (List.getElem?_eq_some_iff.mp hm).1
  have bound' : k < (p.drafts stored added).length := h.length_made ▸ bound
  have bound'' : k < ids.length := h.length ▸ bound'
  refine ⟨(p.drafts stored added)[k], ids[k], List.getElem?_eq_getElem bound',
    List.getElem?_eq_getElem bound'', ?_⟩
  have := congrArg (·[k]?) h.made_eq
  simp only [List.getElem?_map, hm, Option.map_some, List.getElem?_mapIdx] at this
  rw [List.getElem?_eq_getElem (by rw [List.length_zip]; omega), List.getElem_zip, Option.map_some,
    Option.some.injEq] at this
  exact this

theorem Outcome.map_id (h : p.Outcome stored marks added ids made) : made.map (·.id) = ids := by
  refine List.ext_getElem? fun k => ?_
  rw [List.getElem?_map]
  cases hm : made[k]? with
  | none =>
    rw [List.getElem?_eq_none_iff, h.length_made, ← h.length] at hm
    rw [List.getElem?_eq_none_iff.mpr hm]
    rfl
  | some m =>
    obtain ⟨e, id, -, hid, eq⟩ := h.made_at hm
    rw [hid, Option.map_some, Option.some.injEq]
    have : m.outline.id = id := by rw [eq]; rfl
    exact this

/-- What the new nodes take over from their drafts. -/
theorem Outcome.map_eq (h : p.Outcome stored marks added ids made) {β : Type} {f : Node → β}
    {g : BatchEntry → β} (same : ∀ e ∈ p.drafts stored added, ∀ m id parent leaf,
      m.outline = e.node.storedAs id parent leaf → f m = g e) :
    made.map f = (p.drafts stored added).map g := by
  refine List.ext_getElem? fun k => ?_
  rw [List.getElem?_map, List.getElem?_map]
  cases hm : made[k]? with
  | none =>
    rw [List.getElem?_eq_none_iff, h.length_made] at hm
    rw [List.getElem?_eq_none_iff.mpr hm]
    rfl
  | some m =>
    obtain ⟨e, id, he, -, eq⟩ := h.made_at hm
    rw [he, Option.map_some, Option.map_some, same e (List.mem_of_getElem? he) m _ _ _ eq]

theorem Outcome.map_hierarchyId (h : p.Outcome stored marks added ids made) :
    made.map (·.hierarchyId) = (p.drafts stored added).map (·.node.hierarchyId) :=
  h.map_eq fun _ _ _ _ _ _ eq => (congrArg Node.hierarchyId eq :)

/-- All new nodes are in the project of the plan. -/
theorem Outcome.inProject (h : p.Outcome stored marks added ids made) {m : Node} (hm : m ∈ made) :
    m.projectId = p.project := by
  obtain ⟨k, hk⟩ := List.getElem?_of_mem hm
  obtain ⟨e, id, he, -, eq⟩ := h.made_at hk
  have same : m.outline.projectId = e.node.projectId := by rw [eq]; rfl
  exact same.trans (h.drafted.drafts e (List.mem_of_getElem? he)).inProject

/-- The formula and the total of the node that is stored for an entry: those of the entry, with
    their references resolved. -/
theorem Outcome.parts_made (h : p.Outcome stored marks added ids made)
    (distinct : (stored.map (·.hierarchyId)).Nodup) {k : Nat} {m : Node}
    (hm : made[k]? = some m) :
    ∃ e n, (p.totalled stored).entries[k + stored.length]? = some e ∧
      n = ((Directory.ofNodes (p.totalled stored).nodes).resolveNode e.node).value ∧
      m.formula = n.formula.map Formula.kept ∧ m.total? = n.total? := by
  have bound := (List.getElem?_eq_some_iff.mp hm).1
  rw [h.length_made] at bound
  -- the entry is a new one
  have origins := (p.agrees_totalled distinct).1.map_eq (·.origin) fun _ => rfl
  have size := (p.agrees_totalled distinct).1.size_eq
  rw [h.drafted.size_eq, Batch.size] at size
  obtain ⟨e, here⟩ : ∃ e, (p.totalled stored).entries[k + stored.length]? = some e :=
    ⟨_, List.getElem?_eq_getElem (by omega)⟩
  have new : e.origin ≠ .stored := by
    have same := congrArg (·[k + stored.length]?) origins
    simp only [List.getElem?_map, here, Option.map_some, h.drafted.entries] at same
    rw [List.getElem?_append_right (by simp), List.length_map, Nat.add_sub_cancel,
      List.getElem?_eq_getElem bound, Option.map_some, Option.some.injEq] at same
    rw [same]
    exact (h.drafted.drafts _ (List.getElem_mem bound)).origin
  refine ⟨e, _, here, rfl, ?_⟩
  have entry : (p.assemble stored).1.entries[k + stored.length]? = some { e with
      node := ((Directory.ofNodes (p.totalled stored).nodes).resolveNode e.node).value } := by
    rw [assemble_fst]
    simp only [Batch.resolveReferences, List.getElem?_map, here, Option.map_some, if_neg new]
  rw [h.saved, List.getElem?_map, Option.map_eq_some_iff] at hm
  obtain ⟨q, hq, rfl⟩ := hm
  have first := (List.getElem?_zip_eq_some.mp hq).1
  rw [List.getElem?_mapIdx, List.getElem?_drop, Nat.add_comm stored.length, entry, Option.map_some,
    Option.some.injEq, finishedEntry, if_neg new] at first
  rw [← first]
  exact ⟨rfl, Node.total?_kept _⟩

end Outcome

theorem countP_drafts (p : ImportPlan) (stored : List Node) (added : List Placeholder) :
    (p.drafts stored added).countP (·.origin == .imported) =
        (p.newGroups (Batch.ofStored stored)).length ∧
      (p.drafts stored added).countP (·.origin == .synthesized) = added.length := by
  simp [drafts, List.countP_append, List.countP_map, Function.comp_def, Assembly.groupEntry,
    Assembly.placeholderEntry]

theorem map_mapIdx_of_stays {α β : Type} {f : Nat → α → α} {g : α → β}
    (stays : ∀ i a, g (f i a) = g a) (xs : List α) : (xs.mapIdx f).map g = xs.map g := by
  refine List.ext_getElem? fun i => ?_
  rw [List.getElem?_map, List.getElem?_mapIdx, Option.map_map, List.getElem?_map]
  exact congrArg (fun h => (xs[i]?).map h) (funext fun a => stays i a)

/-- The stored node of a finished entry. -/
theorem outline_saved_finishedEntry (p : ImportPlan) (stored : List Node) (marks : Bool) (i : Nat)
    {e : BatchEntry} (new : e.origin ≠ .stored) (all : List String) (id : String) :
    ((p.finishedEntry stored marks i e).saved all id).outline =
      e.node.storedAs id ((p.links stored i).bind (all[·]?))
        (p.leafMark stored marks i e.node.flags.leaf) := by
  have node : (p.finishedEntry stored marks i e).node = { e.node with
      flags := { e.node.flags with leaf := p.leafMark stored marks i e.node.flags.leaf } } := by
    rw [finishedEntry, if_neg new]
  have eq : ((p.finishedEntry stored marks i e).saved all id).outline =
      { ((p.finishedEntry stored marks i e).node.withParent
          ((p.links stored i).bind (all[·]?))).kept.outline with id := id } := rfl
  rw [eq, Node.outline_kept, node]
  rfl

section FinishedEntry

variable (p : ImportPlan) (stored : List Node) (marks : Bool) (i : Nat) (e : BatchEntry)

@[simp] theorem finishedEntry_origin : (p.finishedEntry stored marks i e).origin = e.origin := rfl

@[simp] theorem finishedEntry_id : (p.finishedEntry stored marks i e).node.id = e.node.id := by
  unfold finishedEntry
  dsimp only
  split_ifs <;> rfl

@[simp] theorem finishedEntry_hierarchyId :
    (p.finishedEntry stored marks i e).node.hierarchyId = e.node.hierarchyId := by
  unfold finishedEntry
  dsimp only
  split_ifs <;> rfl

@[simp] theorem finishedEntry_projectId :
    (p.finishedEntry stored marks i e).node.projectId = e.node.projectId := by
  unfold finishedEntry
  dsimp only
  split_ifs <;> rfl

end FinishedEntry

/-- A finished entry goes back to one with the same outline, and so to the same origin, ids and
    project. -/
theorem exists_of_finished (p : ImportPlan) (stored : List Node) (marks : Bool) (n : Nat)
    {xs ys : List BatchEntry} (same : xs.map BatchEntry.outline = ys.map BatchEntry.outline)
    {e : BatchEntry} (he : e ∈ xs.mapIdx fun k => p.finishedEntry stored marks (k + n)) :
    ∃ e' ∈ ys, e'.origin = e.origin ∧ e'.node.id = e.node.id ∧
      e'.node.projectId = e.node.projectId := by
  obtain ⟨k, hk, rfl⟩ := List.mem_mapIdx.mp he
  have mem : (xs[k]).outline ∈ ys.map BatchEntry.outline :=
    same ▸ List.mem_map_of_mem (List.getElem_mem hk)
  obtain ⟨e', he', outline⟩ := List.mem_map.mp mem
  refine ⟨e', he', ?_, ?_, ?_⟩
  · rw [finishedEntry_origin]
    exact (congrArg BatchEntry.origin outline :)
  · rw [finishedEntry_id]
    exact (congrArg (·.node.id) outline :)
  · rw [finishedEntry_projectId]
    exact (congrArg (·.node.projectId) outline :)

/-- The finished batch can be stored: its new entries are the drafts of the plan, but for formulas,
    totals, links and leaf marks. -/
theorem storable_finished (p : ImportPlan) (s : Store) (marks : Bool)
    (known : s.hasProject p.project = true) (ids : (s.nodes.map (·.id)).Nodup)
    (named : ∀ n ∈ s.nodesOf p.project, n.id ≠ "")
    (keys : ((s.nodesOf p.project).map (·.hierarchyId)).Nodup) {added : List Placeholder}
    (drafted : (p.filled (s.nodesOf p.project)).Drafted (s.nodesOf p.project) p.project
      (p.drafts (s.nodesOf p.project) added)) :
    ∃ old new : List BatchEntry,
      new = (p.assemble (s.nodesOf p.project)).1.entries.drop (s.nodesOf p.project).length ∧
      new.map BatchEntry.outline = (p.drafts (s.nodesOf p.project) added).map BatchEntry.outline ∧
      (∀ e ∈ new, e.node.ChildrenIn (p.nodeIds (s.nodesOf p.project))) ∧
      old.map (·.node.id) = (s.nodesOf p.project).map (·.id) ∧
      (p.finished (s.nodesOf p.project) marks).Storable s p.project old (new.mapIdx fun k =>
        p.finishedEntry (s.nodesOf p.project) marks (k + (s.nodesOf p.project).length)) := by
  set stored := s.nodesOf p.project
  -- the entries of the assembled batch, split as those of the drafted one
  have outlines := (p.agrees_assemble keys).outlines
  rw [drafted.entries, List.map_append] at outlines
  obtain ⟨old, new, split, oldEq, newEq⟩ := List.map_eq_append_iff.mp outlines
  have oldLength : old.length = stored.length := by
    have := congrArg List.length oldEq
    simpa using this
  have origins := BatchEntry.map_eq_of_outlines newEq (·.origin) fun _ => rfl
  have fresh : ∀ e ∈ new, e.origin ≠ .stored := by
    intro e he
    have mem := List.mem_map_of_mem (f := BatchEntry.origin) he
    rw [origins] at mem
    obtain ⟨e', he', same⟩ := List.mem_map.mp mem
    exact same ▸ (drafted.drafts e' he').origin
  have rest : new = (p.assemble stored).1.entries.drop stored.length := by
    rw [split, ← oldLength, List.drop_left]
  have oldIds : (old.mapIdx (p.finishedEntry stored marks)).map (·.node.id) =
      stored.map (·.id) := by
    rw [map_mapIdx_of_stays (by simp), BatchEntry.map_eq_of_outlines oldEq (·.node.id) fun _ => rfl,
      List.map_map]
    rfl
  have fromStored : ∀ e ∈ old.mapIdx (p.finishedEntry stored marks),
      e.origin = .stored ∧ ∃ n ∈ stored, n.id = e.node.id := by
    intro e he
    obtain ⟨e', he', origin, id, -⟩ := p.exists_of_finished stored marks 0 oldEq he
    obtain ⟨n, hn, rfl⟩ := List.mem_map.mp he'
    exact ⟨origin.symm, n, hn, id⟩
  have fromDraft : ∀ e ∈ new.mapIdx fun k => p.finishedEntry stored marks (k + stored.length),
      e.origin ≠ .stored ∧ e.node.id = "" ∧ e.node.projectId = p.project := by
    intro e he
    obtain ⟨e', he', origin, id, project⟩ := p.exists_of_finished stored marks _ newEq he
    have draft := drafted.drafts e' he'
    exact ⟨origin ▸ draft.origin, id ▸ draft.unsaved, project ▸ draft.inProject⟩
  refine ⟨old.mapIdx (p.finishedEntry stored marks), new, rest, newEq, ?_, oldIds, ?_⟩
  · intro e he
    exact p.closed_assemble keys e (by rw [split]; exact List.mem_append_right _ he) (fresh e he)
  · refine ⟨?_, fun e he => (fromStored e he).1, fun e he => (fromDraft e he).1, ?_,
      fun e he => (fromDraft e he).2.1, fun e he => (fromDraft e he).2.2, known, ids, ?_⟩
    · rw [finished_entries keys drafted, split, List.mapIdx_append, oldLength]
    · intro e he
      obtain ⟨-, n, hn, id⟩ := fromStored e he
      exact id ▸ named n hn
    · rw [map_mapIdx_of_stays (by simp),
        BatchEntry.map_eq_of_outlines newEq (·.node.hierarchyId) fun _ => rfl]
      exact drafted.distinct

section Finishing

variable (p : ImportPlan) (stored : List Node) (marks : Bool) (n : Nat)
  {new drafts : List BatchEntry} (same : new.map BatchEntry.outline = drafts.map BatchEntry.outline)

include same

theorem countP_origin_finished (o : Origin) :
    (new.mapIdx fun k => p.finishedEntry stored marks (k + n)).countP (·.origin == o) =
      drafts.countP (·.origin == o) := by
  have origins : (new.mapIdx fun k => p.finishedEntry stored marks (k + n)).map (·.origin) =
      drafts.map (·.origin) := by
    rw [map_mapIdx_of_stays (by simp)]
    exact BatchEntry.map_eq_of_outlines same (·.origin) fun _ => rfl
  have counts := congrArg (List.countP (· == o)) origins
  rw [List.countP_map, List.countP_map] at counts
  exact counts

variable (fresh : ∀ e ∈ drafts, e.origin ≠ .stored) (all ids : List String)

include fresh

/-- The stored nodes of the finished entries, up to formulas and totals. -/
theorem map_outline_saved :
    (((new.mapIdx fun k => p.finishedEntry stored marks (k + n)).zip ids).map fun q =>
        q.1.saved all q.2).map Node.outline =
      (drafts.zip ids).mapIdx fun k q => q.1.node.storedAs q.2
        ((p.links stored (k + n)).bind (all[·]?))
        (p.leafMark stored marks (k + n) q.1.node.flags.leaf) := by
  have length : new.length = drafts.length := by
    have := congrArg List.length same
    simpa using this
  refine List.ext_getElem (by simp [length]) fun k hk hk' => ?_
  have bound : k < drafts.length := by
    rw [List.length_mapIdx, List.length_zip] at hk'
    omega
  have bound' : k < new.length := length ▸ bound
  have outline : (new[k]).outline = (drafts[k]).outline := by
    have := congrArg (·[k]?) same
    simpa [bound, bound'] using this
  have origin : (new[k]).origin = (drafts[k]).origin := (congrArg BatchEntry.origin outline :)
  have leaf : (new[k]).node.flags.leaf = (drafts[k]).node.flags.leaf :=
    (congrArg (·.node.flags.leaf) outline :)
  simp only [List.getElem_map, List.getElem_zip, List.getElem_mapIdx]
  rw [outline_saved_finishedEntry p stored marks _ (origin ▸ fresh _ (List.getElem_mem bound)),
    Node.storedAs_congr (congrArg BatchEntry.node outline), leaf]

/-- The stored node of a finished entry keeps the total of the entry. -/
theorem childrenIn_saved {known : List String} (closed : ∀ e ∈ new, e.node.ChildrenIn known) :
    ∀ m ∈ ((new.mapIdx fun k => p.finishedEntry stored marks (k + n)).zip ids).map fun q =>
      q.1.saved all q.2, m.ChildrenIn known := by
  intro m hm
  obtain ⟨⟨e, id⟩, hq, rfl⟩ := List.mem_map.mp hm
  have he := (List.of_mem_zip hq).1
  obtain ⟨e', he', origin, -⟩ := p.exists_of_finished stored marks n same he
  obtain ⟨k, hk, rfl⟩ := List.mem_mapIdx.mp he
  have added : (new[k]).origin ≠ .stored := by
    rw [finishedEntry_origin] at origin
    exact origin ▸ fresh e' he'
  have total : ((p.finishedEntry stored marks (k + n) new[k]).saved all id).total? =
      (new[k]).node.total? := by
    rw [BatchEntry.saved, finishedEntry, if_neg added]
    exact Node.total?_kept _
  intro t ht
  exact closed _ (List.getElem_mem hk) t (total ▸ ht)

end Finishing

/-- Storing the batch of a plan. -/
theorem persist_finished (p : ImportPlan) (s : Store) (marks : Bool)
    (known : s.hasProject p.project = true) (ids : (s.nodes.map (·.id)).Nodup)
    (named : ∀ n ∈ s.nodesOf p.project, n.id ≠ "")
    (keys : ((s.nodesOf p.project).map (·.hierarchyId)).Nodup) :
    ∃ added ids made, p.Outcome (s.nodesOf p.project) marks added ids made ∧
      (∀ id ∈ ids, id ≠ "" ∧ id ∉ s.nodes.map (·.id)) ∧
      (p.finished (s.nodesOf p.project) marks).persist .permissive p.groups s =
        ({ s with nodes := s.nodes ++ made },
          { imported := (p.newGroups (Batch.ofStored (s.nodesOf p.project))).length
            synthesized := added.length }) := by
  obtain ⟨added, sublist, drafted⟩ := p.drafted_filled keys
  change (p.filled (s.nodesOf p.project)).Drafted (s.nodesOf p.project) p.project
    (p.drafts (s.nodesOf p.project) added) at drafted
  obtain ⟨old, new, rest, newEq, closed, oldIds, storable⟩ :=
    p.storable_finished s marks known ids named keys drafted
  set stored := s.nodesOf p.project
  have fresh : ∀ e ∈ p.drafts stored added, e.origin ≠ .stored := fun e he =>
    (drafted.drafts e he).origin
  obtain ⟨ids', length, nodup, unused, run⟩ := Batch.persist_eq storable p.groups
  rw [oldIds] at run
  have length' : ids'.length = (p.drafts stored added).length := by
    have := congrArg List.length newEq
    simpa [length] using this
  have counts := p.countP_origin_finished stored marks stored.length newEq
  refine ⟨added, ids', _, ⟨sublist, drafted, length', nodup,
    p.map_outline_saved stored marks stored.length newEq fresh (stored.map (·.id) ++ ids') ids',
    p.childrenIn_saved stored marks stored.length newEq fresh _ ids' closed, by rw [rest]⟩,
    unused, ?_⟩
  rw [run, counts, counts, (p.countP_drafts stored added).1, (p.countP_drafts stored added).2]

end ImportPlan

/-- The store and the summary after an import. -/
theorem Import.rows_outcome (s : Store) (project : String) (d : Dialect) (w : Window)
    (marks : Bool) (rs : List HierarchyRow) (known : s.hasProject project = true)
    (ids : (s.nodes.map (·.id)).Nodup) (named : ∀ n ∈ s.nodesOf project, n.id ≠ "")
    (keys : ((s.nodesOf project).map (·.hierarchyId)).Nodup) :
    let p := (ImportPlan.ofRows project d w rs).1
    let start := Batch.ofStored (s.nodesOf project)
    ∃ added ids made warnings, p.Outcome (s.nodesOf project) marks added ids made ∧
      (∀ id ∈ ids, id ≠ "" ∧ id ∉ s.nodes.map (·.id)) ∧
      Import.rows .permissive s project d w marks rs =
        ({ s with nodes := s.nodes ++ made },
          { imported := (p.newGroups start).length
            skipped := p.repeats.length + (p.existing start).length
            synthesized := added.length
            errors := (d.group w rs).2
            warnings := warnings }) := by
  intro p start
  obtain ⟨added, ids, made, outcome, fresh, run⟩ := p.persist_finished s marks known ids named keys
  refine ⟨added, ids, made, (ImportPlan.ofRows project d w rs).2.warnings ++
    (p.assemble (s.nodesOf project)).2.warnings ++
    ((p.assemble (s.nodesOf project)).1.link d p.groups).2, outcome, fresh, ?_⟩
  have eq : Import.rows .permissive s project d w marks rs =
      ((p.finished (s.nodesOf project) marks).persist .permissive p.groups s |>.1,
        (((ImportPlan.ofRows project d w rs).2.merge (p.assemble (s.nodesOf project)).2).addWarnings
          ((p.assemble (s.nodesOf project)).1.link d p.groups).2).merge
            ((p.finished (s.nodesOf project) marks).persist .permissive p.groups s).2) := rfl
  have project_eq : s.nodesOf p.project = s.nodesOf project := rfl
  rw [project_eq] at run
  rw [eq, run]
  simp [Summary.merge, Summary.addWarnings, ImportPlan.assemble, ImportPlan.ofRows,
    ImportPlan.ofRowsIn, p, start]

/-! ## Tables -/

namespace Import

/-- The rows of a table that can be read. -/
def readRows (t : Table) (d : Dialect) : List HierarchyRow :=
  (t.rows.map (t.hierarchyRow d (t.customFlagColumns d))).filterMap Except.toOption

/-- The messages about the records and the rows of a table that cannot be read. -/
def readErrors (t : Table) (d : Dialect) : List String :=
  t.problems ++ (t.rows.map (t.hierarchyRow d (t.customFlagColumns d))).filterMap fun
    | .error e => some e.message
    | .ok _ => none

theorem read_of_mem_readRows {t : Table} {d : Dialect} {r : HierarchyRow} (h : r ∈ readRows t d) :
    ∃ row ∈ t.rows, t.hierarchyRow d (t.customFlagColumns d) row = .ok r := by
  obtain ⟨o, ho, eq⟩ := List.mem_filterMap.mp h
  obtain ⟨row, hrow, hr⟩ := List.mem_map.mp ho
  cases o with
  | error e => cases eq
  | ok r' =>
    cases eq
    exact ⟨row, hrow, hr⟩

theorem tableIn_eq (order : TotalPlan.SearchOrder) {g : WriteGuard} {s : Store} {project : String}
    (known : s.hasProject project = true) (d : Dialect) (w : Window) (t : Table) :
    tableIn order g s project d w t =
      .ok ((rowsIn order g s project d w (t.hasColumn Column.isLeafNode) (readRows t d)).1,
        ({ errors := readErrors t d } : Summary).merge
          (rowsIn order g s project d w (t.hasColumn Column.isLeafNode) (readRows t d)).2) := by
  unfold tableIn
  rw [if_pos known]
  rfl

theorem tableIn_eq_error {order : TotalPlan.SearchOrder} {g : WriteGuard} {s : Store}
    {project : String} (unknown : ¬ s.hasProject project = true) (d : Dialect) (w : Window)
    (t : Table) : tableIn order g s project d w t = .error (.projectNotFound project) :=
  if_neg unknown

/-- An import of a table is one of the rows that can be read. -/
theorem table_eq {g : WriteGuard} {s : Store} {project : String} (known : s.hasProject project = true)
    (d : Dialect) (w : Window) (t : Table) :
    table g s project d w t =
      .ok ((rows g s project d w (t.hasColumn Column.isLeafNode) (readRows t d)).1,
        ({ errors := readErrors t d } : Summary).merge
          (rows g s project d w (t.hasColumn Column.isLeafNode) (readRows t d)).2) :=
  tableIn_eq .asUsed known d w t

end Import

/-! ## Orders of the search for repeats -/

/-- Two summaries agree but for the groups that warnings about a repeated label name. -/
structure Summary.Alike (groups : List RowGroup) (r r' : Summary) : Prop where
  rest : r' = { r with warnings := r'.warnings }
  warnings : List.Forall₂ (TotalPlan.SameWarning groups) r.warnings r'.warnings

namespace Summary.Alike

variable {groups : List RowGroup} {r r' : Summary} (h : Alike groups r r')

theorem refl (groups : List RowGroup) (r : Summary) : Alike groups r r :=
  ⟨rfl, List.forall₂_same.mpr fun w _ => .same w⟩

include h

/-- Summaries that are alike stay so before the same further messages. -/
theorem merge_right (after : Summary) : Alike groups (r.merge after) (r'.merge after) := by
  refine ⟨?_, List.rel_append h.warnings (refl groups after).warnings⟩
  rw [h.rest]
  rfl

/-- Summaries that are alike stay so after the same earlier messages. -/
theorem merge_left (before : Summary) : Alike groups (before.merge r) (before.merge r') := by
  refine ⟨?_, List.rel_append (refl groups before).warnings h.warnings⟩
  rw [h.rest]
  rfl

theorem addWarnings (ws : List String) : Alike groups (r.addWarnings ws) (r'.addWarnings ws) := by
  refine ⟨?_, List.rel_append h.warnings (refl groups { warnings := ws }).warnings⟩
  rw [h.rest]
  rfl

end Summary.Alike

namespace Import

variable (order : TotalPlan.SearchOrder) (g : WriteGuard) (s : Store) (project : String)
  (d : Dialect) (w : Window)

/-- In every order the rows are stored alike and reported alike. -/
theorem rowsIn_alike (marks : Bool) (rs : List HierarchyRow) :
    (rowsIn order g s project d w marks rs).1 = (rows g s project d w marks rs).1 ∧
      (rowsIn order g s project d w marks rs).2.Alike (d.group w rs).1
        (rows g s project d w marks rs).2 := by
  obtain ⟨totals, warnings⟩ := TotalPlan.planIn_alike order (d.group w rs).1
  have plan : (ImportPlan.ofRowsIn order project d w rs).1 =
      (ImportPlan.ofRowsIn .asUsed project d w rs).1 :=
    congrArg (fun ts => (⟨project, d, (d.group w rs).1, ts, d.missingAncestors (d.group w rs).1⟩ :
      ImportPlan)) totals
  have planned : (ImportPlan.ofRowsIn order project d w rs).2.Alike (d.group w rs).1
      (ImportPlan.ofRowsIn .asUsed project d w rs).2 := ⟨rfl, warnings⟩
  unfold rows rowsIn
  dsimp only
  rw [plan]
  exact ⟨rfl, ((planned.merge_right _).addWarnings _).merge_right _⟩

/-- In every order the import of a table has the same effect on the store, and the summaries are
    alike. -/
theorem tableIn_alike (known : s.hasProject project = true) (t : Table) :
    ∃ imported summary summary',
      tableIn order g s project d w t = .ok (imported, summary) ∧
      table g s project d w t = .ok (imported, summary') ∧
      summary.Alike (d.group w (readRows t d)).1 summary' := by
  obtain ⟨stored, reported⟩ :=
    rowsIn_alike order g s project d w (t.hasColumn Column.isLeafNode) (readRows t d)
  refine ⟨_, _, _, tableIn_eq order known d w t, ?_, reported.merge_left _⟩
  rw [table_eq known, stored]

end Import

end Rollup

import Mathlib.Data.List.Basic
import Mathlib.Tactic.SplitIfs
import Rollup.Proofs.Import.Assembly
import Rollup.Proofs.Import.Links
import Rollup.Proofs.Reference

/-!
# What totals and references change

The last two passes over a batch put totals on nodes and resolve references. They leave alone all
that decides the links and the identity of nodes, and the children of the totals are nodes of the
batch.

Results:

* `agrees_assemble`: the batch of a plan agrees with the batch of its nodes but for formulas and
  totals.
* `links_congr`: batches that agree have the same links.
* `totalAt_foldl_addTotal`: which total a node has after all plans.
* `closed_assemble`: the children of the totals of new nodes carry hierarchy ids of the batch.
-/

namespace Rollup

/-- An entry without the formula and the total of its node. -/
def BatchEntry.outline (e : BatchEntry) : BatchEntry :=
  { e with node := e.node.outline }

/-- What does not depend on formulas and totals is the same for entries with the same outlines. -/
theorem BatchEntry.map_eq_of_outlines {es fs : List BatchEntry}
    (h : es.map BatchEntry.outline = fs.map BatchEntry.outline) {α : Type} (f : BatchEntry → α)
    (stays : ∀ e : BatchEntry, f e.outline = f e) : es.map f = fs.map f := by
  have eq : ∀ es : List BatchEntry, es.map f = (es.map BatchEntry.outline).map f := by
    intro es
    rw [List.map_map]
    exact List.map_congr_left fun e _ => (stays e).symm
  rw [eq, h, ← eq]

namespace Batch

/-! ## Agreement -/

/-- Two batches that differ at most in formulas and totals. -/
structure Agrees (b c : Batch) : Prop where
  outlines : b.entries.map BatchEntry.outline = c.entries.map BatchEntry.outline
  fresh : b.fresh = c.fresh
  stored : b.stored = c.stored

section Agrees

variable {b c : Batch}

theorem Agrees.refl (b : Batch) : b.Agrees b :=
  ⟨rfl, rfl, rfl⟩

theorem Agrees.trans {a : Batch} (h : a.Agrees b) (h' : b.Agrees c) : a.Agrees c :=
  ⟨h.outlines.trans h'.outlines, h.fresh.trans h'.fresh, h.stored.trans h'.stored⟩

theorem Agrees.map_eq (h : b.Agrees c) {α : Type} (f : BatchEntry → α)
    (stays : ∀ e : BatchEntry, f e.outline = f e) : b.entries.map f = c.entries.map f :=
  BatchEntry.map_eq_of_outlines h.outlines f stays

theorem Agrees.getElem? (h : b.Agrees c) (i : Nat) :
    (b.entries[i]?).map BatchEntry.outline = (c.entries[i]?).map BatchEntry.outline := by
  rw [← List.getElem?_map, h.outlines, List.getElem?_map]

theorem Agrees.size_eq (h : b.Agrees c) : b.size = c.size := by
  have := congrArg List.length h.outlines
  simpa [size] using this

theorem newPositions_eq_of_origins (b : Batch) : b.newPositions =
    ((b.entries.map (·.origin)).zipIdx.filter (·.1 != .stored)).map (·.2) := by
  rw [newPositions, List.zipIdx_map, List.filter_map, List.map_map]
  rfl

theorem Agrees.newPositions_eq (h : b.Agrees c) : b.newPositions = c.newPositions := by
  rw [newPositions_eq_of_origins, newPositions_eq_of_origins, h.map_eq _ fun _ => rfl]

/-! ## The links of batches that agree -/

theorem proposedParent_congr (fresh : b.fresh = c.fresh) (stored : b.stored = c.stored)
    (d : Dialect) (groups : List RowGroup) (i : Nat) {e f : BatchEntry} (path : e.path = f.path)
    (group : e.group = f.group) :
    (b.proposedParent d groups i e).1 = (c.proposedParent d groups i f).1 := by
  have byXref : ∀ row, b.byParentXref? i row = c.byParentXref? i row := by
    intro row
    simp only [byParentXref?, byXref?, fresh, stored]
  have byId : ∀ row, b.byParentId? i row = c.byParentId? i row := by
    intro row
    simp only [byParentId?, byId?, fresh, stored]
  have byPath : ∀ p, b.byPath? p = c.byPath? p := by
    intro p
    simp only [byPath?, fresh, stored]
  have legacy : (b.legacyPathParent i e).1 = (c.legacyPathParent i f).1 := by
    simp only [legacyPathParent, path, byPath, byDepthName?, fresh, stored]
    cases LevelPath.parent? f.path <;> rfl
  unfold proposedParent
  rw [group]
  cases d with
  | standard =>
    simp only [standardParent, path, byPath]
    cases (f.group.bind (groups[·]?)).map (·.leader) with
    | none => rfl
    | some row =>
      simp only [byXref row, byId row]
      cases c.byParentXref? i row with
      | some p => rfl
      | none =>
        cases c.byParentId? i row with
        | some p => rfl
        | none =>
          dsimp only
          split_ifs <;> rfl
  | legacy =>
    simp only [legacyParent]
    cases (f.group.bind (groups[·]?)).map (·.leader) with
    | none => exact legacy
    | some row =>
      simp only [byXref row]
      cases c.byParentXref? i row with
      | some p => rfl
      | none => exact legacy

theorem Agrees.proposal_eq (h : b.Agrees c) (d : Dialect) (groups : List RowGroup) (i : Nat) :
    b.proposal d groups i = c.proposal d groups i := by
  have here := h.getElem? i
  unfold proposal
  cases hb : b.entries[i]? with
  | none =>
    rw [hb, Option.map_none, eq_comm, Option.map_eq_none_iff] at here
    rw [here]
    rfl
  | some e =>
    rw [hb, Option.map_some, eq_comm, Option.map_eq_some_iff] at here
    obtain ⟨f, hf, same⟩ := here
    rw [hf, Option.bind_some, Option.bind_some]
    exact proposedParent_congr h.fresh h.stored d groups i (congrArg BatchEntry.path same).symm
      (congrArg BatchEntry.group same).symm

theorem climbMeets_congr (parents : b.parent? = c.parent?) (child : Nat) : ∀ steps i : Nat,
    b.climbMeets child steps i = c.climbMeets child steps i := by
  intro steps
  induction steps with
  | zero => intro i; rfl
  | succ steps ih =>
    intro i
    rw [climbMeets, climbMeets, parents]
    cases c.parent? i with
    | none => rfl
    | some p =>
      dsimp only
      rw [ih p]

theorem Agrees.parent?_withParents (h : b.Agrees c) (f : Nat → Option Nat) :
    (b.withParents f).parent? = (c.withParents f).parent? := by
  funext i
  have length := h.size_eq
  have here : ∀ a : Batch, (a.withParents f).parent? i = if i < a.size then f i else none := by
    intro a
    rw [parent?, getElem?_withParents]
    split_ifs with hi
    · rw [List.getElem?_eq_getElem hi]
      rfl
    · rw [List.getElem?_eq_none_iff.mpr (by rw [size] at hi; omega)]
      rfl
  rw [here, here, length]

theorem links_congr (h : b.Agrees c) (d : Dialect) (groups : List RowGroup) :
    b.links d groups = c.links d groups := by
  have step : b.linkStep d groups = c.linkStep d groups := by
    funext f i
    have cycle : ∀ p, (b.withParents f).wouldCycle i p = (c.withParents f).wouldCycle i p := by
      intro p
      rw [wouldCycle, wouldCycle, size_withParents, size_withParents, h.size_eq]
      exact climbMeets_congr (h.parent?_withParents f) i _ p
    unfold linkStep
    rw [h.proposal_eq]
    cases c.proposal d groups i with
    | none => rfl
    | some p =>
      dsimp only
      rw [cycle p]
  unfold links
  rw [h.newPositions_eq, step]

end Agrees

/-! ## Children of totals -/

/-- The children of the totals of new nodes carry hierarchy ids of the given list. -/
def Closed (ids : List String) (b : Batch) : Prop :=
  ∀ e ∈ b.entries, e.origin ≠ .stored → e.node.ChildrenIn ids

end Batch

namespace TotalPlan

theorem outline_attach (t : TotalPlan) (groups : List RowGroup) (n : Node) :
    (t.attach groups n).outline = n.outline := by
  have eq : (t.attach groups n).outline = { n with
      formula := none
      filter := some { groups := (n.filter.getD {}).groups } } := rfl
  rw [eq, Node.outline, Node.filterGroups]
  cases n.filter <;> rfl

theorem outline_stripLabel (t : TotalPlan) (n : Node) : (t.stripLabel n).outline = n.outline := by
  unfold stripLabel
  cases n.formula with
  | none => rfl
  | some f =>
    dsimp only
    split_ifs <;> rfl

theorem childrenIn_attach {ids : List String} {groups : List RowGroup}
    (known : ∀ g ∈ groups, g.hierarchyId ∈ ids) (t : TotalPlan) (n : Node) :
    (t.attach groups n).ChildrenIn ids := by
  intro total ht c hc
  cases ht
  obtain ⟨gi, -, hc⟩ := List.mem_filterMap.mp hc
  obtain ⟨g, hg, rfl⟩ := Option.map_eq_some_iff.mp hc
  exact ⟨g.hierarchyId, known g (List.mem_of_getElem? hg), rfl⟩

theorem total?_stripLabel (t : TotalPlan) (n : Node) : (t.stripLabel n).total? = n.total? := by
  unfold stripLabel
  cases n.formula with
  | none => rfl
  | some f =>
    dsimp only
    split_ifs <;> rfl

theorem childrenIn_stripLabel {ids : List String} {n : Node} (h : n.ChildrenIn ids)
    (t : TotalPlan) : (t.stripLabel n).ChildrenIn ids := by
  intro total ht
  rw [total?_stripLabel] at ht
  exact h total ht

/-- The children of the total that a plan puts on a node. -/
def totalChildren (t : TotalPlan) (groups : List RowGroup) : List TotalChild :=
  t.children.filterMap fun i => (groups[i]?).map fun g => ⟨some g.hierarchyId, g.name⟩

end TotalPlan

/-! ## The passes -/

namespace Assembly

theorem agrees_modifyNode (b : Batch) (i : Nat) {f : Node → Node}
    (stays : ∀ n, (f n).outline = n.outline) : (modifyNode b i f).Agrees b := by
  refine ⟨List.ext_getElem? fun j => ?_, rfl, rfl⟩
  rw [List.getElem?_map, List.getElem?_map]
  simp only [modifyNode, Batch.modify, List.getElem?_modify]
  cases b.entries[j]? with
  | none => rfl
  | some e =>
    split_ifs
    · simp [BatchEntry.outline, stays]
    · rfl

theorem closed_modifyNode {ids : List String} {b : Batch} (h : b.Closed ids) (i : Nat)
    {f : Node → Node} (keeps : ∀ n : Node, n.ChildrenIn ids → (f n).ChildrenIn ids) :
    (modifyNode b i f).Closed ids := by
  intro e he new
  obtain ⟨j, hj⟩ := List.getElem?_of_mem he
  simp only [modifyNode, Batch.modify, List.getElem?_modify] at hj
  obtain ⟨e', he', rfl⟩ := Option.map_eq_some_iff.mp hj
  split_ifs at new ⊢
  · exact keeps _ (h e' (List.mem_of_getElem? he') new)
  · exact h e' (List.mem_of_getElem? he') new

/-- A total changes formulas and totals only, and its children are groups of the plan. -/
theorem addTotal_keeps {ids : List String} (p : ImportPlan)
    (known : ∀ g ∈ p.groups, g.hierarchyId ∈ ids) (a : Assembly) (t : TotalPlan) :
    (addTotal p a t).batch.Agrees a.batch ∧
      (a.batch.Closed ids → (addTotal p a t).batch.Closed ids) := by
  have strip : ∀ (members : List Nat) (b : Batch),
      (members.foldl (fun b j => modifyNode b j t.stripLabel) b).Agrees b ∧
        (b.Closed ids → (members.foldl (fun b j => modifyNode b j t.stripLabel) b).Closed ids) := by
    intro members
    induction members with
    | nil => intro b; exact ⟨.refl b, id⟩
    | cons j members ih =>
      intro b
      obtain ⟨agrees, closed⟩ := ih (modifyNode b j t.stripLabel)
      exact ⟨agrees.trans (agrees_modifyNode b j t.outline_stripLabel),
        fun h => closed (closed_modifyNode h j fun n hn => TotalPlan.childrenIn_stripLabel hn t)⟩
  unfold addTotal
  cases a.placed.lookup t.parent with
  | none => exact ⟨.refl _, id⟩
  | some i =>
    obtain ⟨agrees, closed⟩ := strip (t.participants.filterMap fun gi => a.placed.lookup gi)
      (modifyNode a.batch i (t.attach p.groups))
    exact ⟨agrees.trans (agrees_modifyNode _ i (t.outline_attach p.groups)),
      fun h => closed (closed_modifyNode h i fun n _ => TotalPlan.childrenIn_attach known t n)⟩

theorem foldl_addTotal_keeps {ids : List String} (p : ImportPlan)
    (known : ∀ g ∈ p.groups, g.hierarchyId ∈ ids) (ts : List TotalPlan) : ∀ a : Assembly,
    (ts.foldl (addTotal p) a).batch.Agrees a.batch ∧
      (a.batch.Closed ids → (ts.foldl (addTotal p) a).batch.Closed ids) := by
  induction ts with
  | nil => intro a; exact ⟨.refl _, id⟩
  | cons t ts ih =>
    intro a
    obtain ⟨agrees, closed⟩ := ih (addTotal p a t)
    obtain ⟨agrees₁, closed₁⟩ := addTotal_keeps p known a t
    exact ⟨agrees.trans agrees₁, fun h => closed (closed₁ h)⟩

/-! ## Where totals are put -/

/-- The total of the node at a position. -/
def totalAt (b : Batch) (i : Nat) : Option Total :=
  (b.entries[i]?).bind (·.node.total?)

theorem totalAt_modifyNode (b : Batch) (i k : Nat) (f : Node → Node) :
    totalAt (modifyNode b i f) k =
      if i = k then (b.entries[k]?).bind fun e => (f e.node).total? else totalAt b k := by
  simp only [totalAt, modifyNode, Batch.modify, List.getElem?_modify]
  split_ifs with same <;> cases b.entries[k]? <;> rfl

theorem totalAt_foldl_strip (t : TotalPlan) (members : List Nat) (k : Nat) : ∀ b : Batch,
    totalAt (members.foldl (fun b j => modifyNode b j t.stripLabel) b) k = totalAt b k := by
  induction members with
  | nil => intro b; rfl
  | cons j members ih =>
    intro b
    rw [List.foldl_cons, ih, totalAt_modifyNode]
    split_ifs with same
    · simp only [TotalPlan.total?_stripLabel]
      rfl
    · rfl

/-- One plan puts its total on the node of its group and leaves the others alone. -/
theorem totalAt_addTotal (p : ImportPlan) {a : Assembly} {t : TotalPlan} {i : Nat}
    (placed : a.placed.lookup t.parent = some i) (k : Nat) :
    totalAt (addTotal p a t).batch k =
      if i = k then (a.batch.entries[k]?).map fun e =>
        ⟨t.label, e.node.name, t.aggregation, t.totalChildren p.groups⟩
      else totalAt a.batch k := by
  unfold addTotal
  rw [placed]
  dsimp only
  rw [totalAt_foldl_strip, totalAt_modifyNode]
  split_ifs with same
  · cases a.batch.entries[k]? <;> rfl
  · rfl

theorem placed_addTotal (p : ImportPlan) (a : Assembly) (t : TotalPlan) :
    (addTotal p a t).placed = a.placed := by
  unfold addTotal
  cases a.placed.lookup t.parent <;> rfl

/-- After all plans, a node has the total of the last plan that is put there. -/
theorem totalAt_foldl_addTotal (p : ImportPlan) (ts : List TotalPlan) (k : Nat) : ∀ a : Assembly,
    totalAt (ts.foldl (addTotal p) a).batch k =
      match (ts.filter fun t => a.placed.lookup t.parent = some k).getLast? with
      | none => totalAt a.batch k
      | some t => (a.batch.entries[k]?).map fun e =>
        ⟨t.label, e.node.name, t.aggregation, t.totalChildren p.groups⟩ := by
  induction ts with
  | nil => intro a; rfl
  | cons t ts ih =>
    intro a
    have names : ((addTotal p a t).batch.entries[k]?).map (·.node.name) =
        (a.batch.entries[k]?).map (·.node.name) := by
      have agrees := (addTotal_keeps p (fun g hg => List.mem_map_of_mem hg) a t).1
      have same := congrArg (·[k]?) (agrees.map_eq (·.node.name) fun _ => rfl)
      simpa only [List.getElem?_map] using same
    rw [List.foldl_cons, ih, placed_addTotal, List.filter_cons]
    cases later : (ts.filter fun t => a.placed.lookup t.parent = some k).getLast? with
    | some t' =>
      -- a later plan replaces this one
      have last : (t :: ts.filter fun t => a.placed.lookup t.parent = some k).getLast? = some t' := by
        rw [List.getLast?_cons, later]
        rfl
      have put := congrArg (Option.map fun name =>
        (⟨t'.label, name, t'.aggregation, t'.totalChildren p.groups⟩ : Total)) names
      rw [Option.map_map, Option.map_map] at put
      split_ifs
      · rw [last]
        exact put
      · rw [later]
        exact put
    | none =>
      rw [List.getLast?_eq_none_iff] at later
      rw [later]
      split_ifs with here
      · rw [totalAt_addTotal p (of_decide_eq_true here), if_pos rfl]
        rfl
      · change totalAt (addTotal p a t).batch k = totalAt a.batch k
        cases placed : a.placed.lookup t.parent with
        | none =>
          unfold addTotal
          rw [placed]
        | some i =>
          rw [totalAt_addTotal p placed, if_neg]
          rintro rfl
          exact here (decide_eq_true placed)

end Assembly

namespace Batch

theorem agrees_resolveReferences (b : Batch) : b.resolveReferences.1.Agrees b := by
  refine ⟨?_, rfl, rfl⟩
  simp only [resolveReferences, List.map_map]
  refine List.map_congr_left fun e _ => ?_
  rw [Function.comp_apply, Function.comp_apply]
  split_ifs
  · rfl
  · simp [BatchEntry.outline, Directory.outline_resolveNode]

theorem closed_resolveReferences {ids : List String} {b : Batch} (h : b.Closed ids)
    (known : ∀ e ∈ b.entries, e.node.hierarchyId ∈ ids) : b.resolveReferences.1.Closed ids := by
  intro e he new
  simp only [resolveReferences, List.map_map] at he
  obtain ⟨e', he', rfl⟩ := List.mem_map.mp he
  rw [Function.comp_apply] at new ⊢
  split_ifs at new ⊢ with stored
  · exact absurd stored new
  · refine Directory.childrenIn_resolveNode _ (h e' he' stored) ?_
    intro r hr
    obtain ⟨n, hn, rfl⟩ := List.mem_map.mp hr
    obtain ⟨e'', he'', rfl⟩ := List.mem_map.mp hn
    exact known e'' he''

end Batch

/-! ## The batch of a plan -/

/-- The node of a group starts without a total. -/
theorem RowGroup.total?_node (g : RowGroup) (project : String) : (g.node project).total? = none := by
  simp only [Node.total?, RowGroup.node]
  split_ifs <;> rfl

namespace ImportPlan

/-- The hierarchy ids of all nodes of the batch of a plan. -/
def nodeIds (p : ImportPlan) (stored : List Node) : List String :=
  (p.filled stored).entries.map (·.node.hierarchyId)

theorem group_mem_nodeIds (p : ImportPlan) {stored : List Node}
    (distinct : (stored.map (·.hierarchyId)).Nodup) {g : RowGroup} (mem : g ∈ p.groups) :
    g.hierarchyId ∈ p.nodeIds stored := by
  obtain ⟨added, -, drafted⟩ := p.drafted_filled distinct
  rw [nodeIds, drafted.entries, List.map_append, List.mem_append]
  rcases p.exists_newGroup_of_id (Batch.ofStored stored) mem with known | ⟨q, hq, same⟩
  · rw [Batch.stored_ofStored] at known
    obtain ⟨n, hn, hid⟩ := List.mem_map.mp (Batch.storedKeys_id?_isSome.mp known)
    exact Or.inl (List.mem_map.mpr ⟨_, List.mem_map_of_mem hn, hid⟩)
  · refine Or.inr (List.mem_map.mpr ⟨Assembly.groupEntry p.project q, ?_, same⟩)
    exact List.mem_append_left _ (List.mem_map_of_mem hq)

/-- The batch with its totals, before references are resolved. -/
def totalled (p : ImportPlan) (stored : List Node) : Batch :=
  let start := Batch.ofStored stored
  let nodes := p.groups.zipIdx.foldl
    (fun a (g, gi) => Assembly.addGroup p p.repeats (p.existing start) a gi g) { batch := start }
  (p.totals.foldl (Assembly.addTotal p) { nodes with batch := p.filled stored }).batch

theorem assemble_fst (p : ImportPlan) (stored : List Node) :
    (p.assemble stored).1 = (p.totalled stored).resolveReferences.1 := rfl

theorem agrees_totalled (p : ImportPlan) {stored : List Node}
    (distinct : (stored.map (·.hierarchyId)).Nodup) :
    (p.totalled stored).Agrees (p.filled stored) ∧
      (p.totalled stored).Closed (p.nodeIds stored) := by
  obtain ⟨added, -, drafted⟩ := p.drafted_filled distinct
  obtain ⟨agrees, closed⟩ := Assembly.foldl_addTotal_keeps p
    (fun g hg => p.group_mem_nodeIds distinct hg) p.totals
    { (p.groups.zipIdx.foldl (fun a (g, gi) => Assembly.addGroup p p.repeats
        (p.existing (Batch.ofStored stored)) a gi g) { batch := Batch.ofStored stored }) with
      batch := p.filled stored }
  refine ⟨agrees, closed fun e he new t ht => ?_⟩
  -- new nodes start without a total
  rw [drafted.entries] at he
  rcases List.mem_append.mp he with he | he
  · obtain ⟨n, -, rfl⟩ := List.mem_map.mp he
    exact absurd rfl new
  · rcases List.mem_append.mp he with he | he
    · obtain ⟨q, -, rfl⟩ := List.mem_map.mp he
      rw [show (Assembly.groupEntry p.project q).node = q.1.node p.project from rfl,
        q.1.total?_node] at ht
      cases ht
    · obtain ⟨h, -, rfl⟩ := List.mem_map.mp he
      cases ht

/-- The batch of a plan agrees with the batch of its nodes but for formulas and totals. -/
theorem agrees_assemble (p : ImportPlan) {stored : List Node}
    (distinct : (stored.map (·.hierarchyId)).Nodup) :
    (p.assemble stored).1.Agrees (p.filled stored) := by
  rw [assemble_fst]
  exact (Batch.agrees_resolveReferences _).trans (p.agrees_totalled distinct).1

/-- The children of the totals of new nodes carry hierarchy ids of the batch. -/
theorem closed_assemble (p : ImportPlan) {stored : List Node}
    (distinct : (stored.map (·.hierarchyId)).Nodup) :
    (p.assemble stored).1.Closed (p.nodeIds stored) := by
  rw [assemble_fst]
  obtain ⟨agrees, closed⟩ := p.agrees_totalled distinct
  refine Batch.closed_resolveReferences closed fun e he => ?_
  have ids := agrees.map_eq (·.node.hierarchyId) fun _ => rfl
  rw [nodeIds, ← ids]
  exact List.mem_map_of_mem he

end ImportPlan

end Rollup

import Mathlib.Data.List.Basic
import Mathlib.Tactic.SplitIfs
import Rollup.Proofs.Service.Skipped

/-!
# Parents named by cross-reference key

A row can name its parent by the cross-reference key of a row. Such a key is looked up among the
rows of the file first: it leads to the node of the first group that has a row with the key and is
no repeat. If there is none, it leads to the first stored node that has the key, even though each
file numbers its rows on its own.

Results:

* `rel_lookup_placesFrom`: what a key leads to among the groups of a file.
* `byXref?_filled`: what a key leads to in an import.
* `parentId_of_key`: the parent of a new node whose leading row names one by key.
* `parentId_rentRows`: a parent that no row of the file has named.
-/

namespace Rollup

namespace ImportPlan

/-- The first group that has a row with the key and is no repeat, with its position. -/
def keyed? (p : ImportPlan) (k : Int) : Option (RowGroup × Nat) :=
  p.groups.zipIdx.find? fun r => !p.isRepeat r.2 && r.1.xrefs.contains k

/-- The node of a group that is no repeat stands at a position: at that of the stored node with its
    id, or among the new nodes, which stand from `next` on. -/
def StandsAt (p : ImportPlan) (start : Batch) (next : Nat) (gs : List (RowGroup × Nat))
    (r : RowGroup × Nat) (q : Nat) : Prop :=
  (p.existing start).lookup r.2 = some q ∨
    ∃ j, (gs.filter fun r => p.isNew start r.2)[j]? = some r ∧ q = next + j

theorem lookup_map_pair (xs : List Int) (k : Int) (q : Nat) :
    (xs.map fun x => (x, q)).lookup k = if xs.contains k then some q else none := by
  induction xs with
  | nil => rfl
  | cons x xs ih =>
    rw [List.map_cons, List.lookup_cons, List.contains_cons, ih]
    cases k == x <;> simp

/-- What a key leads to among some groups of a file: to the node of the first one that has it and
    is no repeat. -/
theorem rel_lookup_placesFrom (p : ImportPlan) (start : Batch) (k : Int)
    (gs : List (RowGroup × Nat)) : ∀ next : Nat,
      Option.Rel (p.StandsAt start next gs)
        (gs.find? fun r => !p.isRepeat r.2 && r.1.xrefs.contains k)
        (((Assembly.placesFrom p start next gs).flatMap fun q =>
          q.1.xrefs.map fun x => (x, q.2)).lookup k) := by
  induction gs with
  | nil => intro next; exact .none
  | cons r gs ih =>
    obtain ⟨g, gi⟩ := r
    intro next
    -- what the groups behind the first one lead to
    have later : ∀ next', (∀ r q, p.StandsAt start next' gs r q →
        p.StandsAt start next ((g, gi) :: gs) r q) →
        Option.Rel (p.StandsAt start next ((g, gi) :: gs))
          (gs.find? fun r => !p.isRepeat r.2 && r.1.xrefs.contains k)
          (((Assembly.placesFrom p start next' gs).flatMap fun q =>
            q.1.xrefs.map fun x => (x, q.2)).lookup k) := by
      intro next' stays
      have rest := ih next'
      revert rest
      generalize gs.find? _ = first
      generalize List.lookup k _ = found
      rintro (stands | _)
      · exact .some (stays _ _ stands)
      · exact .none
    have skip : p.isNew start gi = false → ∀ r q, p.StandsAt start next gs r q →
        p.StandsAt start next ((g, gi) :: gs) r q := by
      intro old r q stands
      rwa [StandsAt, List.filter_cons, if_neg (by simp [old])]
    rw [Assembly.placesFrom, List.find?_cons]
    cases rep : p.isRepeat gi with
    | true =>
      rw [Bool.not_true, Bool.false_and, if_pos rfl]
      exact later next (skip (by simp [isNew, rep]))
    | false =>
      rw [Bool.not_false, Bool.true_and, if_neg (by simp)]
      cases ex : (p.existing start).lookup gi with
      | some x =>
        dsimp only
        rw [List.flatMap_cons, List.lookup_append, lookup_map_pair]
        cases g.xrefs.contains k with
        | true => exact .some (Or.inl ex)
        | false => exact later next (skip (by simp [isNew, ex]))
      | none =>
        have new : p.isNew start gi = true := by simp [isNew, rep, ex]
        dsimp only
        rw [List.flatMap_cons, List.lookup_append, lookup_map_pair]
        cases g.xrefs.contains k with
        | true => exact .some (Or.inr ⟨0, by rw [List.filter_cons, if_pos new]; rfl, rfl⟩)
        | false =>
          refine later (next + 1) fun r q stands => ?_
          rcases stands with old | ⟨j, here, rfl⟩
          · exact Or.inl old
          · refine Or.inr ⟨j + 1, ?_, by omega⟩
            rw [List.filter_cons, if_pos new, List.getElem?_cons_succ, here]

/-- The group that a key leads to. -/
theorem of_keyed? {p : ImportPlan} {k : Int} {g : RowGroup} {gi : Nat}
    (keyed : p.keyed? k = some (g, gi)) :
    p.groups[gi]? = some g ∧ ∃ row ∈ g.rows, row.xrefKey = some k := by
  have own := List.find?_some keyed
  rw [Bool.and_eq_true, List.contains_iff_mem] at own
  exact ⟨List.mem_zipIdx_iff_getElem?.mp (List.mem_of_find?_eq_some keyed),
    List.mem_filterMap.mp own.2⟩

/-- Where the keys of stored nodes lead to. -/
theorem xref?_storedKeys (nodes : List Node) (k : Int) :
    (Batch.storedKeys nodes 0).xref? k = nodes.findIdx? fun n => n.xrefKey == some k := by
  have from_first : ∀ first, (((nodes.zipIdx first).filterMap fun q =>
      q.1.xrefKey.map fun key => (key, q.2)).lookup k) =
        (nodes.findIdx? fun n => n.xrefKey == some k).map (· + first) := by
    induction nodes with
    | nil => intro first; rfl
    | cons n nodes ih =>
      intro first
      rw [List.zipIdx_cons, List.filterMap_cons, List.findIdx?_cons]
      cases own : n.xrefKey with
      | none =>
        rw [Option.map_none, ih]
        simp [Function.comp_def, Nat.add_comm, Nat.add_left_comm]
      | some key =>
        rw [Option.map_some, List.lookup_cons, ih]
        by_cases same : k = key
        · simp [same]
        · have apart : (k == key) = false := beq_eq_false_iff_ne.mpr same
          simp [apart, Ne.symm same, Function.comp_def, Nat.add_comm, Nat.add_left_comm]
  have start := from_first 0
  simpa [KeyTable.xref?, Batch.storedKeys] using start

/-- What a key leads to: to the node of the first group that has it and is no repeat, or if there is
    none, to the first stored node that has it. -/
theorem byXref?_filled {p : ImportPlan} {stored : List Node} {k : Int} {q : Nat}
    (distinct : (stored.map (·.hierarchyId)).Nodup) (found : (p.filled stored).byXref? k = some q) :
    (∃ r, p.keyed? k = some r ∧
        p.StandsAt (Batch.ofStored stored) stored.length p.groups.zipIdx r q) ∨
      p.keyed? k = none ∧ (stored.findIdx? fun n => n.xrefKey == some k) = some q := by
  have xrefs : (p.filled stored).fresh.xrefs =
      (p.places stored).flatMap fun q => q.1.xrefs.map fun x => (x, q.2) := by
    rw [filled, Assembly.xrefs_foldl_addPlaceholder, grouped_eq, Assembly.foldl_groupKeys]
    exact List.nil_append _
  obtain ⟨added, -, drafted⟩ := p.drafted_filled distinct
  have rel := rel_lookup_placesFrom p (Batch.ofStored stored) k p.groups.zipIdx stored.length
  rw [Batch.byXref?, KeyTable.xref?, xrefs, drafted.stored_keys, xref?_storedKeys] at found
  rw [keyed?]
  revert rel found
  rw [places]
  generalize p.groups.zipIdx.find? _ = first
  generalize List.lookup k _ = own
  rintro found (stands | _)
  · rw [Option.some_or, Option.some.injEq] at found
    subst found
    exact Or.inl ⟨_, rfl, stands⟩
  · exact Or.inr ⟨rfl, found⟩

end ImportPlan

namespace Service

open Ancestry Import

section Imports

variable {s t : Store} (wf : s.WellFormed) {project : String} {table : Table}
  {dialect : Option Dialect} {report : ImportReport}
  (done : importTable s project table dialect = .ok (t, report))

include wf done

/-- The node of a group that is no repeat is there after the import, where the group stands. -/
theorem exists_of_standsAt {r : RowGroup × Nat} {q : Nat} :
    let plan := importPlan s project report.dialect table
    plan.groups[r.2]? = some r.1 →
      plan.StandsAt (Batch.ofStored (s.nodesOf project)) (s.nodesOf project).length
        plan.groups.zipIdx r q →
      ∃ m, (t.nodesOf project)[q]? = some m ∧ m.hierarchyId = r.1.hierarchyId := by
  intro plan here stands
  rcases stands with ex | ⟨j, new, rfl⟩
  · exact exists_of_existing wf done here ex
  · obtain ⟨added, ids, made, all, rfl, -⟩ := importTable_outcome wf done
    have after := all.nodesOf_after project
    rw [if_pos rfl] at after
    have draft : ((plan.drafts (s.nodesOf project) added).map (·.node.hierarchyId))[j]? =
        some r.1.hierarchyId := by
      have group : ((plan.newGroups (Batch.ofStored (s.nodesOf project))).map
          ((·.node.hierarchyId) ∘ Assembly.groupEntry plan.project))[j]? =
            some r.1.hierarchyId := by
        rw [List.getElem?_map, show (plan.newGroups _)[j]? = some r from new]
        rfl
      rw [ImportPlan.drafts, List.map_append, List.map_map,
        List.getElem?_append_left (List.getElem?_eq_some_iff.mp group).1, group]
    rw [← all.outcome.map_hierarchyId, List.getElem?_map] at draft
    obtain ⟨m, hm, id⟩ := Option.map_eq_some_iff.mp draft
    refine ⟨afterImport s project made m, ?_, ?_⟩
    · rw [after, List.getElem?_map, List.getElem?_append_right (Nat.le_add_right _ _),
        Nat.add_sub_cancel_left, hm, Option.map_some]
    · exact (congrArg Node.Place.hierarchyId (place_afterImport m)).trans id

end Imports

/-- The parent of a new node whose leading row names one by key. It is the node of the first group
    of the file that has a row with the key and is no repeat, whether that node is new or stored;
    only if there is no such group, it is the first stored node that has the key. -/
theorem parentId_of_key {s t : Store} (h : Reachable s) {project : String} {table : Table}
    {dialect : Option Dialect} {report : ImportReport}
    (done : importTable s project table dialect = .ok (t, report)) :
    let plan := importPlan s project report.dialect table
    let b := (plan.assemble (s.nodesOf project)).1
    ∀ i e n row k q, (s.nodesOf project).length ≤ i → b.entries[i]? = some e →
      (t.nodesOf project)[i]? = some n → Batch.leader? plan.groups e = some row →
      row.parentXrefKey = some k → b.byParentXref? i row = some q →
      ∃ m, (t.nodesOf project)[q]? = some m ∧
        (Closes (b.proposals report.dialect plan.groups) i ∧ n.parentId = none ∨
          n.parentId = some m.id) ∧
        (∀ g gi, plan.keyed? k = some (g, gi) →
          (∃ row' ∈ g.rows, row'.xrefKey = some k) ∧ m.hierarchyId = g.hierarchyId) ∧
        (plan.keyed? k = none →
          ((s.nodesOf project).findIdx? fun old => old.xrefKey == some k) = some q ∧
          ∃ old, (s.nodesOf project)[q]? = some old ∧ old.xrefKey = some k ∧ m.id = old.id) := by
  intro plan b i e n row k q new he here leads key named
  have wf := wellFormed_of_reachable h
  have agrees := plan.agrees_assemble (wf.keys project)
  rw [Batch.byParentXref?, key, Option.bind_some] at named
  have link : b.proposals report.dialect plan.groups i = some q := by
    rw [proposals_of_new wf new he, Batch.proposal, he, Option.bind_some, Batch.proposedParent_fst,
      leads, Batch.parentFrom_key key, named, Option.some_or]
  have stored : ∀ m, (t.nodesOf project)[q]? = some m →
      (Closes (b.proposals report.dialect plan.groups) i ∧ n.parentId = none ∨
        n.parentId = some m.id) := by
    intro m hm
    rcases parentId_importTable wf done new here with closed | ⟨-, eq⟩
    · exact Or.inl closed
    · rw [link, Option.bind_some, hm, Option.map_some] at eq
      exact Or.inr eq
  have found : (plan.filled (s.nodesOf project)).byXref? k = some q := by
    have own := (Option.filter_eq_some_iff.mp named).1
    rwa [Batch.byXref?, agrees.fresh, agrees.stored] at own
  rcases ImportPlan.byXref?_filled (wf.keys project) found with
    ⟨⟨g, gi⟩, keyed, stands⟩ | ⟨unkeyed, first⟩
  · obtain ⟨group, row', hrow', own⟩ := ImportPlan.of_keyed? keyed
    obtain ⟨m, hm, id⟩ := exists_of_standsAt wf done group stands
    refine ⟨m, hm, stored m hm, fun g' gi' same => ?_, fun none => ?_⟩
    · obtain ⟨rfl, rfl⟩ := Prod.mk.inj (Option.some.inj (keyed.symm.trans same))
      exact ⟨⟨row', hrow', own⟩, id⟩
    · rw [keyed] at none
      cases none
  · obtain ⟨bound, own, -⟩ := List.findIdx?_eq_some_iff_getElem.mp first
    have here := List.getElem?_eq_getElem bound
    obtain ⟨m, hm, place⟩ := exists_of_stored wf done here
    refine ⟨m, hm, stored m hm, fun g gi keyed => ?_, fun _ => ?_⟩
    · rw [unkeyed] at keyed
      cases keyed
    · exact ⟨first, _, here, beq_iff_eq.mp own, congrArg Node.Place.id place⟩

/-- A row that is skipped because its node is stored, and a row that names it by key. -/
theorem parentId_of_key_onlineRows : ∃ t report m n, Reachable netStore ∧
    importTable netStore "P" onlineRows (some .standard) = .ok (t, report) ∧
    (t.nodesOf "P")[0]? = some m ∧ (t.nodesOf "P")[1]? = some n ∧
    m.hierarchyId = "NET_SALES" ∧ n.hierarchyId = "ONLINE" ∧ n.parentId = some m.id := by
  have ran : (importTable netStore "P" onlineRows (some .standard)).toOption.map (fun x =>
      (x.2.dialect, (x.1.nodesOf "P").map fun n => (n.hierarchyId, n.parentId.isSome))) =
      some (.standard, [("NET_SALES", false), ("ONLINE", true)]) := by
    decide +kernel
  have plan : ((importPlan netStore "P" .standard onlineRows).keyed? 2).map
      (fun r => (r.1.hierarchyId, r.2)) = some ("NET_SALES", 0) := by
    decide +kernel
  have search : (((importPlan netStore "P" .standard onlineRows).assemble
      (netStore.nodesOf "P")).1.entries[1]?).bind (fun e => (Batch.leader?
        (importPlan netStore "P" .standard onlineRows).groups e).bind fun row =>
          row.parentXrefKey.bind fun k => (((importPlan netStore "P" .standard onlineRows).assemble
            (netStore.nodesOf "P")).1.byParentXref? 1 row).map fun q => (k, q)) =
      some (2, 0) := by
    decide +kernel
  obtain ⟨⟨t, report⟩, done, shown⟩ := Option.map_eq_some_iff.mp ran
  obtain ⟨dialect, nodes⟩ := Prod.mk.inj shown
  dsimp only at dialect nodes
  obtain ⟨⟨g, gi⟩, keyed, group⟩ := Option.map_eq_some_iff.mp plan
  obtain ⟨e, he, search⟩ := Option.bind_eq_some_iff.mp search
  obtain ⟨row, leads, search⟩ := Option.bind_eq_some_iff.mp search
  obtain ⟨k, key, search⟩ := Option.bind_eq_some_iff.mp search
  obtain ⟨q, named, eq⟩ := Option.map_eq_some_iff.mp search
  obtain ⟨rfl, rfl⟩ := Prod.mk.inj eq
  obtain ⟨n, hn, online⟩ := Option.map_eq_some_iff.mp
    (List.getElem?_map .. ▸ congrArg (·[1]?) nodes)
  have result := parentId_of_key reachable_netStore (ok_of_toOption done)
  rw [dialect] at result
  obtain ⟨m, hm, linked, own, -⟩ := result 1 e n row 2 0 (by decide +kernel) he hn leads key named
  obtain ⟨name, linkedSome⟩ := Prod.mk.inj online
  refine ⟨t, report, m, n, reachable_netStore, ok_of_toOption done, hm, hn,
    (own g gi keyed).2.trans (Prod.mk.inj group).1, name, ?_⟩
  rcases linked with ⟨-, root⟩ | parent
  · rw [root] at linkedSome
    cases linkedSome
  · exact parent

/-- Rows without any keys of their own. One of them names its parent by a key and by an id. -/
def rentRows : Table :=
  { headers := ["HIERARCHY_NAME", "PARENT_XREF_KEY", "PARENT_ID"]
    columns := ["HIERARCHY_NAME", "PARENT_XREF_KEY", "PARENT_ID"]
    rows := [⟨1, ["Costs", "", ""]⟩, ⟨2, ["Rent", "1", "COSTS"]⟩]
    problems := [] }

/-- A node is put below a stored one by a key that no row of the file has. -/
theorem parentId_rentRows : ∃ t report, Reachable netStore ∧
    importTable netStore "P" rentRows (some .standard) = .ok (t, report) ∧
    (∀ row ∈ readRows rentRows .standard, row.xrefKey = none) ∧
    ((t.nodesOf "P").map fun n => (n.hierarchyId, (n.parentId.bind fun id =>
      (t.nodesOf "P").find? (·.id == id)).map (·.hierarchyId))) =
        [("NET_SALES", none), ("COSTS", none), ("RENT", some "NET_SALES")] := by
  have keyless : ∀ row ∈ readRows rentRows .standard, row.xrefKey = none := by
    decide +kernel
  have shown : (importTable netStore "P" rentRows (some .standard)).toOption.map (fun x =>
      (x.1.nodesOf "P").map fun n => (n.hierarchyId, (n.parentId.bind fun id =>
        (x.1.nodesOf "P").find? (·.id == id)).map (·.hierarchyId))) =
      some [("NET_SALES", none), ("COSTS", none), ("RENT", some "NET_SALES")] := by
    decide +kernel
  obtain ⟨⟨t, report⟩, done, nodes⟩ := Option.map_eq_some_iff.mp shown
  exact ⟨t, report, reachable_netStore, ok_of_toOption done, keyless, nodes⟩

end Service

end Rollup

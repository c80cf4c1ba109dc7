import Mathlib.Data.List.Basic
import Rollup.Proofs.HierarchyRow.Parents
import Rollup.Proofs.Import.Cuts
import Rollup.Proofs.Import.EmptyProject
import Rollup.Proofs.RowGroup.Standard

/-!
# Standard rows with ids of their own

A standard row that has its hierarchy id for itself forms a group of its own. In an empty project,
the keys of such rows lead to their positions, so the parent that is proposed for a row is the row
that it names, and if these form no cycle, all of them are linked.

Results:

* `exists_group_eq`: the groups of such rows.
* `rel_proposal`: the proposed parent stands where the named row does.
* `rel_links`: so do the links.
-/

namespace Rollup

open HierarchyRow

/-! ## Groups of one row -/

/-- The group of a row that has its hierarchy id for itself. -/
def HierarchyRow.solo (w : Window) (r : HierarchyRow) : RowGroup where
  hierarchyId := r.hierarchyId.getD ""
  name := (RowGroup.Standard.rowName w r).getD (r.hierarchyId.getD "")
  path := LevelPath.resolve w r.levels
  pathSorts := LevelPath.resolveSorts w r.levels r.levelSorts
  leader := r
  others := []

namespace RowGroup.Standard

theorem ofBucket_solo {w : Window} {r : HierarchyRow} {id : String} (has : r.hierarchyId = some id)
    (filled : id ≠ "") : ofBucket w (.id id) [r] = some (.ok (r.solo w)) := by
  have name : ([r].findSome? (·.name)).or (rowName w r) = rowName w r := by
    rw [rowName]
    cases h : r.name with
    | none => simp [h]
    | some n => simp [h]
  have order : leadershipOrder [r] = [r] := rfl
  unfold ofBucket
  rw [order]
  dsimp only
  rw [name, if_neg filled, solo, has]
  rfl

theorem nodup_hierarchyId {rows : List HierarchyRow}
    (filled : ∀ r ∈ rows, ∃ id, r.hierarchyId = some id ∧ id ≠ "")
    (distinct : (rows.filterMap (·.hierarchyId)).Nodup) :
    (rows.map fun r => r.hierarchyId.getD "").Nodup := by
  have same : rows.filterMap (·.hierarchyId) = rows.map fun r => r.hierarchyId.getD "" := by
    rw [← List.filterMap_eq_map]
    refine List.filterMap_congr fun r hr => ?_
    obtain ⟨id, has, -⟩ := filled r hr
    rw [Function.comp_apply, has, Option.getD_some]
  exact same ▸ distinct

/-- Rows with ids of their own form groups of one row, in the order of their numbers. -/
theorem group_of_distinct {w : Window} {rows : List HierarchyRow}
    (filled : ∀ r ∈ rows, ∃ id, r.hierarchyId = some id ∧ id ≠ "")
    (distinct : (rows.filterMap (·.hierarchyId)).Nodup) :
    (group w rows).1.Perm (rows.map (·.solo w)) := by
  have keyed : withId rows =
      rows.flatMap fun r => [r].map fun a => (Key.id (r.hierarchyId.getD ""), a) := by
    rw [withId, List.filterMap_eq_flatMap_toList]
    refine List.flatMap_congr fun r hr => ?_
    obtain ⟨id, has, -⟩ := filled r hr
    rw [has]
    rfl
  have idLess : rows.filter (·.hierarchyId.isNone) = [] := by
    rw [List.filter_eq_nil_iff]
    intro r hr
    obtain ⟨id, has, -⟩ := filled r hr
    rw [has]
    simp
  have collected : buckets (withId rows) =
      rows.map fun r => (Key.id (r.hierarchyId.getD ""), [r]) := by
    rw [keyed]
    refine buckets_flatMap (fun r : HierarchyRow => Key.id (r.hierarchyId.getD "")) (fun r => [r]) ?_
      fun r _ => List.cons_ne_nil r []
    have nodup := (nodup_hierarchyId filled distinct).map (f := Key.id)
      fun a b same => Key.id.inj same
    rwa [List.map_map] at nodup
  have outcomes : (rows.map fun r => (Key.id (r.hierarchyId.getD ""), [r])).filterMap
      (fun b => ofBucket w b.1 b.2) = (rows.map (·.solo w)).map Except.ok := by
    rw [List.filterMap_map, List.map_map, ← List.filterMap_eq_map]
    refine List.filterMap_congr fun r hr => ?_
    obtain ⟨id, has, ne⟩ := filled r hr
    simp only [Function.comp_apply, has, Option.getD_some, ofBucket_solo has ne]
  have kept : ((rows.map (·.solo w)).map Except.ok).filterMap
      (Except.toOption : Except String RowGroup → Option RowGroup) = rows.map (·.solo w) := by
    rw [List.filterMap_map]
    exact List.filterMap_some
  refine (perm_stableSort _ _).trans ?_
  simp only [idLess, List.filterMap_nil, List.append_nil, collected, outcomes, kept]
  exact List.Perm.refl _

/-- The groups of rows with ids of their own are those of the rows in some order. -/
theorem exists_group_eq {w : Window} {rows : List HierarchyRow}
    (filled : ∀ r ∈ rows, ∃ id, r.hierarchyId = some id ∧ id ≠ "")
    (distinct : (rows.filterMap (·.hierarchyId)).Nodup) :
    ∃ us : List HierarchyRow, us.Perm rows ∧ (group w rows).1 = us.map (·.solo w) := by
  have perm := group_of_distinct (w := w) filled distinct
  refine ⟨(group w rows).1.map (·.leader), ?_, ?_⟩
  · have leaders := perm.map (·.leader)
    rw [List.map_map] at leaders
    exact leaders.trans (List.Perm.of_eq (List.map_id rows))
  · have same : ∀ g ∈ (group w rows).1, g.leader.solo w = g := by
      intro g hg
      obtain ⟨r, -, rfl⟩ := List.mem_map.mp (perm.subset hg)
      rfl
    rw [List.map_map]
    exact (List.map_id _).symm.trans (List.map_congr_left fun g hg => (same g hg).symm)

end RowGroup.Standard

/-! ## Positions of keys -/

/-- The element at a position. -/
def At {α : Type} (xs : List α) (i : Nat) (a : α) : Prop :=
  xs[i]? = some a

/-- The first position with a property is that of the first element with it. -/
theorem rel_findIdx? {α : Type} (xs : List α) (q : α → Bool) :
    Option.Rel (At xs) (xs.findIdx? q) (xs.find? q) := by
  cases found : xs.findIdx? q with
  | none =>
    rw [List.find?_eq_none.mpr fun a ha => by simp [List.findIdx?_eq_none_iff.mp found a ha]]
    exact .none
  | some i =>
    obtain ⟨bound, has, first⟩ := List.findIdx?_eq_some_iff_getElem.mp found
    have first : ∀ (j : Nat) (hj : j < i), (!q xs[j]) = true := fun j hj => by simpa using first j hj
    rw [List.find?_eq_some_iff_getElem.mpr ⟨has, i, bound, rfl, first⟩]
    exact .some (List.getElem?_eq_getElem bound)

/-- Keys that are registered in order lead to the first position that has them. -/
theorem lookup_positions {α κ : Type} [BEq κ] [LawfulBEq κ] (key : α → Option κ) (xs : List α)
    (k : κ) : ∀ n, ((xs.zipIdx n).filterMap fun q => (key q.1).map fun x => (x, q.2)).lookup k =
      (xs.findIdx? (key · == some k)).map (· + n) := by
  induction xs with
  | nil => exact fun _ => rfl
  | cons a xs ih =>
    intro n
    rw [List.zipIdx_cons, List.filterMap_cons, List.findIdx?_cons]
    cases has : key a with
    | none => simp [ih, Nat.add_comm 1 n]
    | some x =>
      by_cases same : k = x
      · subst same
        simp
      · have apart : (k == x) = false := beq_eq_false_iff_ne.mpr same
        have apart' : (some x == some k) = false := by simpa using Ne.symm same
        simp [List.lookup_cons, apart, apart', ih, Nat.add_comm 1 n]

theorem rel_or {α β : Type} {R : α → β → Prop} {a b : Option α} {a' b' : Option β}
    (h : Option.Rel R a a') (h' : Option.Rel R b b') : Option.Rel R (a.or b) (a'.or b') := by
  cases h with
  | none => exact h'
  | some related => exact .some related

/-! ## Proposals -/

namespace ImportPlan

/-- A plan for standard rows that form groups of their own. -/
structure Singles (p : ImportPlan) (w : Window) (us : List HierarchyRow) : Prop where
  dialect : p.dialect = .standard
  groups : p.groups = us.map (·.solo w)
  placeholders : p.placeholders = []

section Singles

variable {p : ImportPlan} {w : Window} {us : List HierarchyRow} (singles : p.Singles w us)
  (h : Explicit w us)

include singles h

theorem Singles.distinct : (p.groups.map (·.hierarchyId)).Nodup := by
  rw [singles.groups, List.map_map]
  exact RowGroup.Standard.nodup_hierarchyId h.filled h.ids

/-- The batch of the rows. -/
theorem Singles.filled_eq : p.filled [] =
    { entries := us.zipIdx.map fun q => Assembly.groupEntry p.project (q.1.solo w, q.2)
      fresh := {
        ids := us.zipIdx.filterMap fun q => q.1.hierarchyId.map fun x => (x, q.2)
        xrefs := us.zipIdx.filterMap fun q => q.1.xrefKey.map fun x => (x, q.2)
        names := us.zipIdx.map fun q => ((q.1.solo w).name, q.2)
        paths := us.zipIdx.filterMap fun q => (q.1.path? w).map fun x => (x, q.2) } } := by
  have zip : p.groups.zipIdx = us.zipIdx.map fun q => (q.1.solo w, q.2) := by
    rw [singles.groups, List.zipIdx_map]
    rfl
  have ids : (us.zipIdx.map fun q => (q.1.solo w, q.2)).map (fun q => (q.1.hierarchyId, q.2)) =
      us.zipIdx.filterMap fun q => q.1.hierarchyId.map fun x => (x, q.2) := by
    rw [List.map_map, ← List.filterMap_eq_map]
    refine List.filterMap_congr fun q hq => ?_
    obtain ⟨id, has, -⟩ := h.filled q.1 (List.fst_mem_of_mem_zipIdx hq)
    rw [has]
    show some ((q.1.hierarchyId).getD "", q.2) = _
    rw [has]
    rfl
  have xrefs : (us.zipIdx.map fun q => (q.1.solo w, q.2)).flatMap
      (fun q => q.1.xrefs.map fun x => (x, q.2)) =
      us.zipIdx.filterMap fun q => q.1.xrefKey.map fun x => (x, q.2) := by
    rw [List.flatMap_map, List.filterMap_eq_flatMap_toList]
    refine List.flatMap_congr fun q _ => ?_
    show ([q.1].filterMap (·.xrefKey)).map _ = _
    cases has : q.1.xrefKey with
    | none => simp [has]
    | some x => simp [has]
  have paths : ((us.zipIdx.map fun q => (q.1.solo w, q.2)).filter fun q => q.1.path ≠ []).map
      (fun q => (q.1.path, q.2)) =
      us.zipIdx.filterMap fun q => (q.1.path? w).map fun x => (x, q.2) := by
    rw [List.filter_map, List.map_map, ← List.filterMap_eq_map, List.filterMap_filter]
    refine List.filterMap_congr fun q _ => ?_
    by_cases bare : LevelPath.resolve w q.1.levels = []
    · simp [solo, path?, bare]
    · simp [solo, path?, bare]
  have filled : p.filled [] = p.grouped [] := by
    rw [filled, singles.placeholders]
    rfl
  rw [filled, grouped_of_distinct (singles.distinct h), zip, ids, xrefs, paths, List.map_map,
    List.map_map]
  rfl

omit singles in
/-- The row that a row names by a key stands where the key leads. -/
theorem rel_named? {κ : Type} [BEq κ] [LawfulBEq κ] {key : HierarchyRow → Option κ}
    {lookup : κ → Option Nat} (found : ∀ x, lookup x = us.findIdx? (key · == some x))
    (wanted : Option κ) {k : Nat} {r : HierarchyRow} (here : us[k]? = some r) :
    Option.Rel (At us) (wanted.bind fun x => Batch.except k (lookup x))
      (named? us r key wanted) := by
  cases wanted with
  | none => exact .none
  | some x =>
    rw [Option.bind_some, found, named?, Option.bind_some]
    have rel := rel_findIdx? us (key · == some x)
    revert rel
    generalize us.findIdx? (key · == some x) = position
    generalize us.find? (key · == some x) = row
    intro rel
    cases rel with
    | none => exact .none
    | @some i a there =>
      by_cases own : i = k
      · obtain rfl : a = r := by
          rw [own, At, here] at there
          exact (Option.some.inj there).symm
        rw [Batch.except, Option.filter_some, if_neg (by simpa using own), Option.filter_some,
          if_neg (by simp)]
        exact .none
      · have apart : a.hierarchyId ≠ r.hierarchyId := by
          intro same
          have distinct := RowGroup.Standard.nodup_hierarchyId h.filled h.ids
          exact own (index_of_nodup_map distinct there here (by rw [same]))
        rw [Batch.except, Option.filter_some, if_pos (by simpa using own), Option.filter_some,
          if_pos (by simpa using apart)]
        exact .some there

/-- The parent that is proposed for a row stands where the row stands that it names. -/
theorem Singles.rel_proposal {k : Nat} {r : HierarchyRow} (here : us[k]? = some r) :
    Option.Rel (At us) ((p.filled []).proposal p.dialect p.groups k) (parentRow? w us r) := by
  have entry : (p.filled []).entries[k]? = some (Assembly.groupEntry p.project (r.solo w, k)) := by
    rw [singles.filled_eq h, List.getElem?_map, List.getElem?_zipIdx, here]
    simp
  have leader : ((Assembly.groupEntry p.project (r.solo w, k)).group.bind
      (p.groups[·]?)).map (·.leader) = some r := by
    rw [Assembly.groupEntry, Option.bind_some, singles.groups, List.getElem?_map, here]
    rfl
  have xref : ∀ x, (p.filled []).byXref? x = us.findIdx? (·.xrefKey == some x) := by
    intro x
    rw [Batch.byXref?, singles.filled_eq h, KeyTable.xref?, lookup_positions]
    simp [KeyTable.xref?]
  have id : ∀ x, (p.filled []).byId? x = us.findIdx? (·.hierarchyId == some x) := by
    intro x
    rw [Batch.byId?, singles.filled_eq h, KeyTable.id?, lookup_positions]
    simp [KeyTable.id?]
  have path : ∀ x, (p.filled []).byPath? x = us.findIdx? (path? w · == some x) := by
    intro x
    rw [Batch.byPath?, singles.filled_eq h, KeyTable.path?, lookup_positions]
    simp [KeyTable.path?]
  rw [Batch.proposal, entry, Option.bind_some, singles.dialect, Batch.proposedParent, leader,
    Batch.standardParent_fst]
  refine rel_or (rel_or (rel_named? h xref _ here) (rel_named? h id _ here)) ?_
  split_ifs
  · exact .none
  · exact rel_named? h path _ here

/-! ## Links -/

theorem Singles.drafts_eq : p.drafts [] [] =
    us.zipIdx.map fun q => Assembly.groupEntry p.project (q.1.solo w, q.2) := by
  rw [drafts, newGroups_of_distinct (singles.distinct h), singles.groups, List.zipIdx_map,
    List.map_map, List.map_nil, List.append_nil]
  rfl

theorem Singles.length_drafts : (p.drafts [] []).length = us.length := by
  rw [singles.drafts_eq h, List.length_map, List.length_zipIdx]

omit h in
theorem Singles.drafted : (p.filled []).Drafted [] p.project (p.drafts [] []) := by
  have empty : (([] : List Node).map (·.hierarchyId)).Nodup := List.nodup_nil
  obtain ⟨added, sublist, drafted⟩ := p.drafted_filled empty
  rw [singles.placeholders] at sublist
  rw [List.sublist_nil.mp sublist] at drafted
  exact drafted

theorem Singles.proposes :
    (p.filled []).Proposes p.dialect p.groups 0 us.length := by
  have proposes := proposes_filled singles.drafted
  rwa [singles.length_drafts h] at proposes

/-- Explicit rows name no parents in a cycle, so their proposals have none. -/
theorem Singles.acyclic (i : Nat) :
    ¬ Relation.TransGen (Ancestry.Link ((p.filled []).proposals p.dialect p.groups)) i i := by
  intro cycle
  let idAt : Nat → String := fun j => ((us[j]?).bind (·.hierarchyId)).getD ""
  have idAt_eq : ∀ {j : Nat} {r : HierarchyRow}, us[j]? = some r →
      r.hierarchyId = some (idAt j) := by
    intro j r here
    obtain ⟨id, has, -⟩ := h.filled r (List.mem_of_getElem? here)
    simp only [idAt, here, Option.bind_some, has, Option.getD_some]
  have step : ∀ q j, Ancestry.Link ((p.filled []).proposals p.dialect p.groups) q j →
      IsParentKey w us (idAt q) (idAt j) := by
    intro q j link
    have bound := (singles.proposes h).lt_of_proposals link
    obtain ⟨r, here⟩ : ∃ r, us[j]? = some r := ⟨_, List.getElem?_eq_getElem (by omega)⟩
    have new : j ∈ (p.filled []).newPositions := by
      rw [(singles.proposes h).positions, List.mem_range'_1]
      omega
    have rel := singles.rel_proposal h here
    rw [← Batch.proposals_of_mem new, show _ = some q from link] at rel
    generalize row : parentRow? w us r = o at rel
    cases rel with
    | @some _ a there =>
      refine ⟨r, List.mem_of_getElem? here, idAt_eq here, ?_⟩
      rw [parentKey?, row, Option.bind_some, idAt_eq there]
  exact h.acyclic (idAt i) (Relation.TransGen.lift idAt step _ _ cycle)

/-- A row is linked to the row that it names. -/
theorem Singles.rel_links {k : Nat} {r : HierarchyRow} (here : us[k]? = some r) :
    Option.Rel (At us) (p.links [] k) (parentRow? w us r) := by
  have bound := (List.getElem?_eq_some_iff.mp here).1
  have new : k ∈ (p.filled []).newPositions := by
    rw [(singles.proposes h).positions, List.mem_range'_1]
    omega
  have free : ¬ Ancestry.Closes ((p.filled []).proposals p.dialect p.groups) k :=
    fun closes => singles.acyclic h k closes.1
  have rel := singles.rel_proposal h here
  rw [← Batch.proposals_of_mem new] at rel
  rwa [links, (singles.proposes h).links_eq, if_neg free]

end Singles

end ImportPlan

end Rollup

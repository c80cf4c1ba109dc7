import Mathlib.Data.List.Basic
import Rollup.Proofs.Import.Outcome

/-!
# Importing into an empty project

Where nothing is stored and the hierarchy ids of the groups are distinct, no group is skipped: the
group at a position becomes the node at that position, and its keys lead there.

Results:

* `newGroups_of_distinct`, `grouped_of_distinct`: the nodes and the keys of the groups.
* `links_of_rank`: if the proposals lower a rank, they are the links.
-/

namespace Rollup

namespace ImportPlan

variable {p : ImportPlan}

section Distinct

variable (distinct : (p.groups.map (·.hierarchyId)).Nodup)

include distinct

theorem isRepeat_of_distinct (gi : Nat) : p.isRepeat gi = false := by
  rw [← Bool.not_eq_true, isRepeat_iff]
  rintro ⟨g, hg, j, hj, g', hg', same⟩
  exact Nat.ne_of_lt hj (index_of_nodup_map distinct hg' hg same)

theorem repeats_of_distinct : p.repeats = [] := by
  rw [List.eq_nil_iff_forall_not_mem]
  rintro ⟨gi, h⟩ mem
  have := p.isRepeat_of_distinct distinct gi
  rw [isRepeat, List.any_eq_false] at this
  exact this _ mem (by simp)

theorem isNew_of_distinct {q : RowGroup × Nat} (mem : q ∈ p.groups.zipIdx) :
    p.isNew (Batch.ofStored []) q.2 = true := by
  rw [p.isNew_iff _ (List.mem_zipIdx_iff_getElem?.mp mem)]
  exact ⟨p.isRepeat_of_distinct distinct q.2, rfl⟩

/-- All groups are new. -/
theorem newGroups_of_distinct : p.newGroups (Batch.ofStored []) = p.groups.zipIdx := by
  rw [newGroups, List.filter_eq_self]
  exact fun q hq => p.isNew_of_distinct distinct hq

/-- The batch with the groups: the group at a position is the node at that position. -/
theorem grouped_of_distinct : p.grouped [] =
    { entries := p.groups.zipIdx.map (Assembly.groupEntry p.project)
      fresh := {
        ids := p.groups.zipIdx.map fun q => (q.1.hierarchyId, q.2)
        xrefs := p.groups.zipIdx.flatMap fun q => q.1.xrefs.map fun x => (x, q.2)
        names := p.groups.zipIdx.map fun q => (q.1.name, q.2)
        paths := (p.groups.zipIdx.filter fun q => q.1.path ≠ []).map fun q => (q.1.path, q.2) } } := by
  have places : p.places [] = p.groups.zipIdx := by
    rw [places, Assembly.placesFrom_of_new _ _ fun q hq => p.isNew_of_distinct distinct hq,
      List.zipIdx_map_fst]
    rfl
  rw [grouped_eq, places, newGroups_of_distinct distinct, Assembly.foldl_groupKeys]
  rfl

end Distinct

theorem agrees_totalled_empty (p : ImportPlan) : (p.totalled []).Agrees (p.filled []) :=
  (p.agrees_totalled (show (([] : List Node).map (·.hierarchyId)).Nodup from List.nodup_nil)).1

theorem existing_empty (p : ImportPlan) : p.existing (Batch.ofStored []) = [] := by
  unfold existing
  dsimp only
  rw [List.filterMap_eq_nil_iff]
  intro q _
  rfl

/-- If the proposals lower a rank, they are the links. -/
theorem links_of_rank {stored : List Node} {added : List Placeholder}
    (drafted : (p.filled stored).Drafted stored p.project (p.drafts stored added)) (rank : Nat → Nat)
    (lowers : ∀ i q, (p.filled stored).proposal p.dialect p.groups i = some q → rank q < rank i)
    {k : Nat} (bound : k < (p.drafts stored added).length) :
    p.links stored (k + stored.length) =
      (p.filled stored).proposal p.dialect p.groups (k + stored.length) := by
  refine Batch.links_eq_proposal (fun _ _ h => proposal_lt drafted _ _ h) lowers ?_ ?_
  · rw [newPositions_filled drafted]
    exact List.nodup_range'
  · rw [newPositions_filled drafted, List.mem_range']
    exact ⟨k, bound, by omega⟩

end ImportPlan

end Rollup

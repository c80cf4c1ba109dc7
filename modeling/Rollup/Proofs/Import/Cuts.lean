import Mathlib.Data.List.Basic
import Rollup.Proofs.Ancestry.Cuts
import Rollup.Proofs.Check.Cycles
import Rollup.Proofs.Import.Outcome
import Rollup.Proofs.Import.Warnings

/-!
# The links that an import refuses

New nodes are linked in the order of their positions. Just before a node is linked, the links of the
batch are the proposed ones of the nodes before it, less those that close a cycle. So its own link
is refused exactly if it closes one.

Results:

* `refused_eq`: which links are refused.
* `links_eq`, `countP_link`: the links of a batch, and the number of its warnings about cycles.
* `exists_cyclesOf`: the proposals have a list of cycles.
-/

namespace Rollup.Batch

open Ancestry Import Classical

/-- The parents that are proposed for the new nodes. -/
def proposals (b : Batch) (d : Dialect) (groups : List RowGroup) (i : Nat) : Option Nat :=
  if i ∈ b.newPositions then b.proposal d groups i else none

/-- The proposed link of the node at a position would close a cycle of the given links. -/
def refused (b : Batch) (d : Dialect) (groups : List RowGroup) (f : Nat → Option Nat) (i : Nat) :
    Bool :=
  (b.proposal d groups i).any ((b.withParents f).wouldCycle i)

/-- The parents that are proposed for new nodes are in the batch. -/
structure Proposes (b : Batch) (d : Dialect) (groups : List RowGroup) (first count : Nat) :
    Prop where
  positions : b.newPositions = List.range' first count
  valid : ∀ i p, b.proposal d groups i = some p → p < b.size

section

variable {b : Batch} {d : Dialect} {groups : List RowGroup} {first count : Nat}

/-! ## One link -/

theorem linksOk_none : b.LinksOk d groups fun _ => none :=
  ⟨fun _ _ up => (by cases up), grounded_none⟩

theorem linkStep_eq (f : Nat → Option Nat) (i : Nat) :
    b.linkStep d groups f i = match b.proposal d groups i with
      | none => f
      | some p => if b.refused d groups f i then f else Function.update f i (some p) := by
  unfold linkStep refused
  cases b.proposal d groups i with
  | none => rfl
  | some p => rfl

/-- One more warning about a cycle is raised if the link is refused. -/
theorem countP_linkOne (f : Nat → Option Nat) (ws : List String) (i : Nat) :
    (linkOne d groups (b.withParents f, ws) i).2.countP isCycleWarning =
      ws.countP isCycleWarning + (b.refused d groups f i).toNat := by
  unfold linkOne refused proposal
  dsimp only
  rw [getElem?_withParents]
  cases b.entries[i]? with
  | none => rfl
  | some e =>
    have quiet := b.quiet_proposedParent d groups i e
    simp only [Option.map_some, Option.bind_some, proposedParent_withParents]
    rcases hp : b.proposedParent d groups i e with ⟨_ | p, raised⟩
    all_goals rw [hp] at quiet
    · rw [List.countP_append, countP_of_quiet quiet]
      rfl
    · dsimp only [Option.any_some]
      split_ifs with cycle
      · rw [cycle, List.countP_append, List.countP_append, countP_of_quiet quiet,
          List.countP_singleton, isCycleWarning_append]
        rfl
      · rw [Bool.not_eq_true] at cycle
        rw [cycle, List.countP_append, countP_of_quiet quiet]
        rfl

theorem Proposes.lt_of_proposals (h : b.Proposes d groups first count) {i p : Nat}
    (link : b.proposals d groups i = some p) : first ≤ i ∧ i < first + count ∧ p < b.size := by
  unfold proposals at link
  split_ifs at link with new
  rw [h.positions, List.mem_range'_1] at new
  exact ⟨new.1, new.2, h.valid i p link⟩

theorem proposals_of_mem {i : Nat} (h : i ∈ b.newPositions) :
    b.proposals d groups i = b.proposal d groups i :=
  if_pos h

/-- With the links kept before it, a link is refused exactly if it closes a cycle. -/
theorem Proposes.refused_eq (h : b.Proposes d groups first count) {i : Nat}
    (new : i ∈ b.newPositions) (ok : b.LinksOk d groups (cut (b.proposals d groups) i)) :
    b.refused d groups (cut (b.proposals d groups) i) i =
      decide (Closes (b.proposals d groups) i) := by
  have same : b.proposals d groups i = b.proposal d groups i := proposals_of_mem new
  unfold refused
  cases link : b.proposal d groups i with
  | none =>
    have stays : ¬ Closes (b.proposals d groups) i := by
      intro closes
      obtain ⟨p, up⟩ := parent_of_closes closes
      rw [same, link] at up
      cases up
    rw [Option.any_none, decide_eq_false stays]
  | some p =>
    have inside : ∀ c q, (b.withParents (cut (b.proposals d groups) i)).parent? c = some q →
        q < (b.withParents (cut (b.proposals d groups) i)).size := by
      intro c q up
      rw [ok.parent?_eq] at up
      rw [size_withParents]
      exact h.valid c q (ok.proposed c q up)
    have start : p < (b.withParents (cut (b.proposals d groups) i)).size := by
      rw [size_withParents]
      exact h.valid i p link
    have avoids : (b.withParents (cut (b.proposals d groups) i)).wouldCycle i p = false ↔
        ¬ Closes (b.proposals d groups) i := by
      rw [wouldCycle_eq_false_iff start inside, ok.parent?_eq]
      exact exists_endsAvoiding_cut_iff ok.grounded (same.trans link)
    rw [Option.any_some, Bool.eq_iff_iff, decide_eq_true_iff, ← not_iff_not, Bool.not_eq_true,
      avoids]

/-- One more link of a new node. -/
theorem Proposes.linkStep_cut (h : b.Proposes d groups first count) {i : Nat}
    (new : i ∈ b.newPositions) (ok : b.LinksOk d groups (cut (b.proposals d groups) i)) :
    b.linkStep d groups (cut (b.proposals d groups) i) i = cut (b.proposals d groups) (i + 1) := by
  rw [linkStep_eq, cut_succ, proposals_of_mem new, h.refused_eq new ok]
  cases link : b.proposal d groups i with
  | none =>
    have stays : Function.update (cut (b.proposals d groups) i) i none =
        cut (b.proposals d groups) i := by
      rw [Function.update_eq_self_iff]
      exact (cut_of_le (Nat.le_refl i)).symm
    rw [stays, ite_self]
  | some p =>
    simp only [decide_eq_true_iff]

/-! ## All links -/

/-- The links after the first new nodes. -/
theorem Proposes.foldl_linkStep (h : b.Proposes d groups first count) : ∀ k ≤ count,
    (List.range' first k).foldl (b.linkStep d groups) (fun _ => none) =
      cut (b.proposals d groups) (first + k) := by
  intro k
  induction k with
  | zero =>
    intro _
    funext i
    symm
    cases link : cut (b.proposals d groups) (first + 0) i with
    | none => rfl
    | some p =>
      obtain ⟨before, -, up⟩ := cut_eq_some_iff.mp link
      have := h.lt_of_proposals up
      omega
  | succ k ih =>
    intro le
    have new : first + k ∈ b.newPositions := by
      rw [h.positions, List.mem_range'_1]
      omega
    have ok := linksOk_foldl h.valid (List.range' first k) _ linksOk_none
    rw [ih (by omega)] at ok
    rw [List.range'_1_concat, List.foldl_concat, ih (by omega), h.linkStep_cut new ok]
    rfl

theorem Proposes.linksOk_cut (h : b.Proposes d groups first count) {k : Nat} (le : k ≤ count) :
    b.LinksOk d groups (cut (b.proposals d groups) (first + k)) := by
  rw [← h.foldl_linkStep k le]
  exact linksOk_foldl h.valid _ _ linksOk_none

/-- The warnings about cycles after the first new nodes. -/
theorem Proposes.countP_foldl_linkOne (h : b.Proposes d groups first count) : ∀ k ≤ count,
    ((List.range' first k).foldl (linkOne d groups)
        (b.withParents fun _ => none, [])).2.countP isCycleWarning =
      (List.range' first k).countP fun i => decide (Closes (b.proposals d groups) i) := by
  intro k
  induction k with
  | zero => exact fun _ => rfl
  | succ k ih =>
    intro le
    have new : first + k ∈ b.newPositions := by
      rw [h.positions, List.mem_range'_1]
      omega
    have before := foldl_linkOne b d groups (List.range' first k) (fun _ => none) []
    rw [h.foldl_linkStep k (by omega)] at before
    have counted := ih (by omega)
    rw [List.range'_1_concat, List.foldl_concat, List.countP_append, ← counted]
    generalize (List.range' first k).foldl (linkOne d groups) (b.withParents fun _ => none, []) =
      acc at before
    obtain ⟨linked, ws⟩ := acc
    dsimp only at before
    rw [before, countP_linkOne, h.refused_eq new (h.linksOk_cut (by omega)), List.countP_singleton]
    by_cases closes : Closes (b.proposals d groups) (first + k)
    · simp [closes]
    · simp [closes]

/-- The links of a batch are the proposed ones, less those that close a cycle. -/
theorem Proposes.links_eq (h : b.Proposes d groups first count) (i : Nat) :
    b.links d groups i =
      if Closes (b.proposals d groups) i then none else b.proposals d groups i := by
  have inside : i < first + count ∨ b.proposals d groups i = none := by
    cases link : b.proposals d groups i with
    | none => exact .inr rfl
    | some p => exact .inl (h.lt_of_proposals link).2.1
  rw [Batch.links, h.positions, h.foldl_linkStep count (Nat.le_refl count), cut]
  rcases inside with inside | none
  · simp only [inside, true_and, ite_not]
  · simp only [none, ite_self]

/-- As many warnings about cycles are raised as positions close a cycle. -/
theorem Proposes.countP_link (h : b.Proposes d groups first count)
    (unlinked : ∀ e ∈ b.entries, e.parent = none) :
    (b.link d groups).2.countP isCycleWarning =
      b.newPositions.countP fun i => decide (Closes (b.proposals d groups) i) := by
  have counted := h.countP_foldl_linkOne count (Nat.le_refl count)
  rw [withParents_none unlinked, ← h.positions] at counted
  exact counted

/-! ## The cycles of the proposals -/

/-- The proposals have a list of cycles: the ones that walks along them find. -/
theorem Proposes.exists_cyclesOf (h : b.Proposes d groups first count)
    (size : b.size = first + count) : ∃ cs, CyclesOf (b.proposals d groups) cs := by
  let f : Forest := ⟨b.nodes, (List.range b.size).map (b.proposals d groups)⟩
  have length : f.size = b.size := by
    simp [f, Forest.size, Batch.nodes, Batch.size]
  have links : f.parent? = b.proposals d groups := by
    funext i
    show (((List.range b.size).map (b.proposals d groups))[i]?).join = _
    rw [List.getElem?_map]
    by_cases inside : i < b.size
    · rw [List.getElem?_range inside, Option.map_some, Option.join_some]
    · rw [List.getElem?_eq_none (by rw [List.length_range]; omega)]
      cases link : b.proposals d groups i with
      | none => rfl
      | some p =>
        have := h.lt_of_proposals link
        omega
  have cycles : CyclesOf f.parent? f.cycles := by
    refine Forest.cyclesOf_cycles (fun {c p} link => ?_) (fun {c p} link => ?_)
    all_goals
      rw [links] at link
      have := h.lt_of_proposals link
      omega
  rw [links] at cycles
  exact ⟨f.cycles, cycles⟩

end

end Rollup.Batch

namespace Rollup.ImportPlan

variable {p : ImportPlan} {stored : List Node} {added : List Placeholder}

/-- The batch of a plan proposes parents within itself. -/
theorem proposes_filled
    (drafted : (p.filled stored).Drafted stored p.project (p.drafts stored added)) :
    (p.filled stored).Proposes p.dialect p.groups stored.length (p.drafts stored added).length :=
  ⟨newPositions_filled drafted, fun _ _ found => proposal_lt drafted _ _ found⟩

theorem proposes_assemble (distinct : (stored.map (·.hierarchyId)).Nodup)
    (drafted : (p.filled stored).Drafted stored p.project (p.drafts stored added)) :
    (p.assemble stored).1.Proposes p.dialect p.groups stored.length
      (p.drafts stored added).length := by
  have agrees := p.agrees_assemble distinct
  have filled := proposes_filled drafted
  refine ⟨?_, fun i q found => ?_⟩
  · rw [agrees.newPositions_eq, filled.positions]
  · rw [agrees.proposal_eq] at found
    rw [agrees.size_eq]
    exact filled.valid i q found

end Rollup.ImportPlan

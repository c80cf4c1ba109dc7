import Mathlib.Data.List.Perm.Basic
import Mathlib.Data.Option.Basic
import Mathlib.Tactic.SplitIfs
import Rollup.Proofs.Ancestry.Cycles

/-!
# Cutting cycles

Links that are made one position after the other, each unless it would close a cycle with those
made before it. A link is refused exactly if its position is the last of a cycle of all the links
that are proposed, whatever order the cycles and their tails come in.

Results:

* `endsAvoiding_or_above`: a climb among finite ones ends without meeting a position, or meets it.
* `exists_endsAvoiding_cut_iff`: the climb from the proposed parent avoids a position, among the
  links kept before it, exactly if the position does not close a cycle.
* `CyclesOf.countP_closes`: as many positions close a cycle as there are cycles.
-/

namespace Rollup.Ancestry

open Relation Classical

variable {f : Nat → Option Nat}

/-- A position is the last member of a cycle. -/
def Closes (f : Nat → Option Nat) (i : Nat) : Prop :=
  TransGen (Link f) i i ∧ ∀ j, TransGen (Link f) j i → j ≤ i

/-- The links of the positions before `n`, without those that close a cycle. -/
noncomputable def cut (f : Nat → Option Nat) (n i : Nat) : Option Nat :=
  if i < n ∧ ¬ Closes f i then f i else none

/-! ## Links that are kept -/

theorem cut_eq_some_iff {n i p : Nat} :
    cut f n i = some p ↔ i < n ∧ ¬ Closes f i ∧ f i = some p := by
  unfold cut
  split_ifs with kept
  · exact ⟨fun link => ⟨kept.1, kept.2, link⟩, fun h => h.2.2⟩
  · refine ⟨fun link => ?_, fun h => absurd ⟨h.1, h.2.1⟩ kept⟩
    cases link

theorem cut_of_le {n i : Nat} (h : n ≤ i) : cut f n i = none := by
  unfold cut
  rw [if_neg (by omega)]

theorem parent_of_closes {i : Nat} (h : Closes f i) : ∃ p, f i = some p := by
  obtain ⟨p, -, link⟩ := TransGen.tail'_iff.mp h.1
  exact ⟨p, link⟩

/-- The links kept up to a position. -/
theorem cut_succ (f : Nat → Option Nat) (n : Nat) :
    cut f (n + 1) = if Closes f n then cut f n else Function.update (cut f n) n (f n) := by
  funext i
  by_cases here : i = n
  · subst here
    split_ifs with closes
    · simp [cut, closes]
    · simp [cut, closes]
  · have same : cut f (n + 1) i = cut f n i := by
      have before : i < n + 1 ↔ i < n := by omega
      simp only [cut, before]
    split_ifs with closes
    · exact same
    · rw [same, Function.update_of_ne here]

/-! ## Climbs among finite ones -/

/-- A climb that ends meets a position or not. -/
theorem endsAvoiding_or_above (grounded : Grounded f) (x i : Nat) :
    (∃ d, EndsAvoiding f x d i) ∨ ReflTransGen (Link f) x i := by
  induction grounded i with
  | intro i _ ih =>
    by_cases here : i = x
    · exact .inr (here ▸ .refl)
    · cases link : f i with
      | none => exact .inl ⟨0, here, link⟩
      | some p =>
        rcases ih p link with ⟨d, ends⟩ | above
        · exact .inl ⟨d + 1, here, p, link, ends⟩
        · exact .inr (above.tail link)

/-- An ancestor of a position on a cycle has the position as an ancestor. -/
theorem transGen_of_above {n j : Nat} (cycle : TransGen (Link f) n n)
    (above : ReflTransGen (Link f) j n) : TransGen (Link f) n j := by
  refine UpClosed.of_above (s := TransGen (Link f) n) (fun i below p link => ?_) above cycle
  obtain ⟨q, between, link'⟩ := TransGen.tail'_iff.mp below
  rw [Link, link, Option.some.injEq] at link'
  subst link'
  rcases reflTransGen_iff_eq_or_transGen.mp between with rfl | between
  · exact cycle
  · exact between

/-! ## Links that are refused -/

/-- From a member of a cycle that `n` closes, the kept links lead to `n`. -/
theorem not_endsAvoiding_cut {n : Nat} (closes : Closes f n) : ∀ {d j : Nat},
    TransGen (Link f) j n → ¬ EndsAvoiding (cut f n) n d j := by
  intro d j above ends
  -- the members before `n` keep their links, for they have `n` above them
  have kept : ∀ {j : Nat}, TransGen (Link f) j n → j ≠ n →
      ∃ p, cut f n j = some p ∧ TransGen (Link f) p n := by
    intro j above ne
    have before : j < n := Nat.lt_of_le_of_ne (closes.2 j above) ne
    have below : TransGen (Link f) n j := transGen_of_above closes.1 above.to_reflTransGen
    obtain ⟨p, -, link⟩ := TransGen.tail'_iff.mp below
    refine ⟨p, cut_eq_some_iff.mpr ⟨before, fun other => ?_, link⟩, above.head link⟩
    have := other.2 n below
    omega
  induction d generalizing j with
  | zero =>
    obtain ⟨p, link, -⟩ := kept above ends.1
    rw [ends.2] at link
    cases link
  | succ d ih =>
    obtain ⟨ne, q, up, rest⟩ := ends
    obtain ⟨p, link, higher⟩ := kept above ne
    rw [up] at link
    cases link
    exact ih higher rest

/-- If the kept links lead from its proposed parent to `n`, then `n` closes a cycle. -/
theorem closes_of_above {n p : Nat} (link : f n = some p)
    (above : ReflTransGen (Link (cut f n)) n p) : Closes f n := by
  have sub : ∀ a b, Link (cut f n) a b → Link f a b := fun a b h => (cut_eq_some_iff.mp h).2.2
  refine ⟨TransGen.tail' (ReflTransGen.mono sub _ _ above) link, fun j higher => ?_⟩
  -- whatever has `n` above it by kept links has its parent there too
  have closed : UpClosed f (ReflTransGen (Link (cut f n)) n) := by
    intro i below q up
    rcases ReflTransGen.cases_tail below with rfl | ⟨r, rest, last⟩
    · rw [link] at up
      cases up
      exact above
    · rw [sub r i last] at up
      cases up
      exact rest
  have below : ReflTransGen (Link (cut f n)) n j := closed.of_above higher.to_reflTransGen .refl
  rcases ReflTransGen.cases_tail below with rfl | ⟨r, -, last⟩
  · exact Nat.le_refl _
  · exact Nat.le_of_lt (cut_eq_some_iff.mp last).1

/-- Among the links kept before `n`, the climb from its proposed parent avoids `n` exactly if `n`
    does not close a cycle. -/
theorem exists_endsAvoiding_cut_iff {n p : Nat} (grounded : Grounded (cut f n))
    (link : f n = some p) :
    (∃ d, EndsAvoiding (cut f n) n d p) ↔ ¬ Closes f n := by
  constructor
  · rintro ⟨d, ends⟩ closes
    exact not_endsAvoiding_cut closes (.single link) ends
  · intro stays
    rcases endsAvoiding_or_above grounded n p with ends | above
    · exact ends
    · exact absurd (closes_of_above link above) stays

/-! ## The number of cuts -/

theorem IsCycle.ne_nil {c : List Nat} (h : IsCycle f c) : c ≠ [] := by
  obtain ⟨first, head, -⟩ := h.closes
  rintro rfl
  cases head

theorem IsCycle.exists_max {c : List Nat} (h : IsCycle f c) : ∃ i ∈ c, c.max? = some i := by
  obtain ⟨i, hi⟩ := Option.ne_none_iff_exists'.mp fun none => h.ne_nil (List.max?_eq_none_iff.mp none)
  exact ⟨i, List.max?_mem hi, hi⟩

/-- The positions that close a cycle are the last members of the cycles. -/
theorem CyclesOf.closes_iff {cs : List (List Nat)} (all : CyclesOf f cs) (i : Nat) :
    Closes f i ↔ ∃ c ∈ cs, c.max? = some i := by
  constructor
  · rintro ⟨cycle, last⟩
    obtain ⟨c, hc, mem⟩ := all.complete i cycle
    refine ⟨c, hc, List.max?_eq_some_iff.mpr ⟨mem, fun j hj => last j ?_⟩⟩
    exact ((all.cyclic c hc).mem_iff mem j).mp hj
  · rintro ⟨c, hc, last⟩
    obtain ⟨mem, max⟩ := List.max?_eq_some_iff.mp last
    have iff := (all.cyclic c hc).mem_iff mem
    exact ⟨(iff i).mp mem, fun j above => max j ((iff j).mpr above)⟩

/-- As many positions close a cycle as there are cycles. -/
theorem CyclesOf.countP_closes {cs : List (List Nat)} (all : CyclesOf f cs) {ps : List Nat}
    (nodup : ps.Nodup) (domain : ∀ i p, f i = some p → i ∈ ps) :
    ps.countP (fun i => decide (Closes f i)) = cs.length := by
  have distinct : (cs.map List.max?).Nodup := by
    refine List.pairwise_map.mpr (all.apart.imp_of_mem fun {c d} hc hd apart same => ?_)
    obtain ⟨i, mem, last⟩ := (all.cyclic c hc).exists_max
    exact apart mem (List.max?_mem (same ▸ last))
  have perm : ((ps.filter fun i => decide (Closes f i)).map some).Perm (cs.map List.max?) := by
    refine (List.perm_ext_iff_of_nodup ((nodup.filter _).map (Option.some_injective _))
      distinct).mpr fun o => ?_
    cases o with
    | none =>
      simp only [List.mem_map, reduceCtorEq, and_false, exists_false, false_iff]
      rintro ⟨c, hc, none⟩
      exact (all.cyclic c hc).ne_nil (List.max?_eq_none_iff.mp none)
    | some i =>
      rw [List.mem_map_of_injective (Option.some_injective _), List.mem_filter, decide_eq_true_iff,
        all.closes_iff, List.mem_map]
      refine ⟨fun h => h.2, fun h => ⟨?_, h⟩⟩
      obtain ⟨p, link⟩ := parent_of_closes ((all.closes_iff i).mpr h)
      exact domain i p link
  rw [List.countP_eq_length_filter, ← List.length_map some, perm.length_eq, List.length_map]

end Rollup.Ancestry

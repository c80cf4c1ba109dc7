import Mathlib.Data.List.Nodup
import Mathlib.Data.List.Perm.Subperm
import Mathlib.Logic.Function.Basic
import Mathlib.Logic.Relation

/-!
# Chains of parent links

Positions with at most one parent each. Climbing from a position either ends at one without a
parent or goes on for ever, and it goes on for ever exactly if it runs into a cycle.

Results:

* `EndsAvoiding.lt_bound`: a climb that ends passes no position twice, so it is shorter than the
  number of positions.
* `exists_endsAvoiding_iff`: climbs that end without meeting a position, link by link.
* `grounded_update`: a new link keeps all climbs finite if the climb from the new parent avoids
  the child.
* `exists_endsAvoiding_of_rank`: links that lower a rank never lead back up.
-/

namespace Rollup.Ancestry

variable {f : Nat → Option Nat}

/-- `p` is the parent of `c`. -/
def Link (f : Nat → Option Nat) (p c : Nat) : Prop :=
  f c = some p

/-- Every climb ends. -/
def Grounded (f : Nat → Option Nat) : Prop :=
  ∀ i, Acc (Link f) i

/-- Climbing from a position ends after `d` links, and never meets `x`. -/
def EndsAvoiding (f : Nat → Option Nat) (x : Nat) : (d : Nat) → Nat → Prop
  | 0, i => i ≠ x ∧ f i = none
  | d + 1, i => i ≠ x ∧ ∃ p, f i = some p ∧ EndsAvoiding f x d p

theorem EndsAvoiding.ne {x d i : Nat} (h : EndsAvoiding f x d i) : i ≠ x := by
  cases d with
  | zero => exact h.1
  | succ d => exact h.1

/-! ## The length of a climb -/

theorem EndsAvoiding.unique {x y : Nat} : ∀ {d e i : Nat}, EndsAvoiding f x d i →
    EndsAvoiding f y e i → d = e := by
  intro d
  induction d with
  | zero =>
    intro e i h h'
    cases e with
    | zero => rfl
    | succ e =>
      obtain ⟨-, p, hp, -⟩ := h'
      rw [h.2] at hp
      cases hp
  | succ d ih =>
    intro e i h h'
    obtain ⟨-, p, hp, hd⟩ := h
    cases e with
    | zero =>
      rw [h'.2] at hp
      cases hp
    | succ e =>
      obtain ⟨-, q, hq, he⟩ := h'
      rw [hp] at hq
      cases hq
      rw [ih hd he]

/-- The positions that a climb of `d` links passes. -/
def passed (f : Nat → Option Nat) : (d : Nat) → Nat → List Nat
  | 0, i => [i]
  | d + 1, i => i :: match f i with
    | none => []
    | some p => passed f d p

theorem EndsAvoiding.length_passed {x : Nat} : ∀ {d i : Nat}, EndsAvoiding f x d i →
    (passed f d i).length = d + 1 := by
  intro d
  induction d with
  | zero => intro i _; rfl
  | succ d ih =>
    intro i h
    obtain ⟨-, p, hp, hd⟩ := h
    simp only [passed, hp, List.length_cons, ih hd]

/-- From every position that a climb passes, the rest of it is no longer. -/
theorem EndsAvoiding.of_mem_passed {x : Nat} : ∀ {d i j : Nat}, EndsAvoiding f x d i →
    j ∈ passed f d i → ∃ e ≤ d, EndsAvoiding f x e j := by
  intro d
  induction d with
  | zero =>
    intro i j h hj
    rw [passed, List.mem_singleton] at hj
    exact ⟨0, Nat.le_refl _, hj ▸ h⟩
  | succ d ih =>
    intro i j h hj
    obtain ⟨-, p, hp, hd⟩ := id h
    simp only [passed, hp, List.mem_cons] at hj
    rcases hj with rfl | hj
    · exact ⟨d + 1, Nat.le_refl _, h⟩
    · obtain ⟨e, he, hj⟩ := ih hd hj
      exact ⟨e, by omega, hj⟩

theorem EndsAvoiding.nodup_passed {x : Nat} : ∀ {d i : Nat}, EndsAvoiding f x d i →
    (passed f d i).Nodup := by
  intro d
  induction d with
  | zero => intro i _; simp [passed]
  | succ d ih =>
    intro i h
    obtain ⟨-, p, hp, hd⟩ := id h
    simp only [passed, hp, List.nodup_cons]
    refine ⟨fun hi => ?_, ih hd⟩
    obtain ⟨e, he, hi⟩ := hd.of_mem_passed hi
    have := h.unique hi
    omega

/-- A climb among `n` positions that ends has fewer than `n` links. -/
theorem EndsAvoiding.lt_bound {x n d i : Nat} (h : EndsAvoiding f x d i) (start : i < n)
    (valid : ∀ c p, f c = some p → p < n) : d < n := by
  have inside : ∀ d i, i < n → ∀ j ∈ passed f d i, j < n := by
    intro d
    induction d with
    | zero =>
      intro i hi j hj
      rw [passed, List.mem_singleton] at hj
      omega
    | succ d ih =>
      intro i hi j hj
      rw [passed, List.mem_cons] at hj
      rcases hj with rfl | hj
      · exact hi
      · cases hp : f i with
        | none => simp [hp] at hj
        | some p =>
          rw [hp] at hj
          exact ih p (valid i p hp) j hj
  have subset : passed f d i ⊆ List.range n := by
    intro j hj
    exact List.mem_range.mpr (inside d i start j hj)
  have bound := (List.subperm_of_subset h.nodup_passed subset).length_le
  rw [h.length_passed, List.length_range] at bound
  omega

/-! ## Climbs link by link -/

/-- The position that a climb reaches after `k` links, if it goes so far. -/
def above (f : Nat → Option Nat) : (k : Nat) → Nat → Option Nat
  | 0, i => some i
  | k + 1, i => (f i).bind (above f k)

theorem EndsAvoiding.above_eq_none {x : Nat} : ∀ {d i : Nat}, EndsAvoiding f x d i →
    above f (d + 1) i = none ∧ ∀ k < d + 1, above f k i ≠ some x := by
  intro d
  induction d with
  | zero =>
    rintro i ⟨ne, top⟩
    refine ⟨by rw [above, top, Option.bind_none], fun k hk => ?_⟩
    rw [show k = 0 by omega, above]
    simpa using ne
  | succ d ih =>
    rintro i ⟨ne, p, up, rest⟩
    obtain ⟨ends, avoids⟩ := ih rest
    refine ⟨by rw [above, up, Option.bind_some, ends], fun k hk => ?_⟩
    cases k with
    | zero => simpa [above] using ne
    | succ k =>
      rw [above, up, Option.bind_some]
      exact avoids k (by omega)

/-- A climb ends without meeting a position if there is nothing after some number of links, and
    something else after any smaller number. -/
theorem exists_endsAvoiding_iff {x i : Nat} : (∃ d, EndsAvoiding f x d i) ↔
    ∃ n, above f n i = none ∧ ∀ k < n, above f k i ≠ some x := by
  constructor
  · rintro ⟨d, ends⟩
    exact ⟨d + 1, ends.above_eq_none⟩
  · rintro ⟨n, ends, avoids⟩
    induction n generalizing i with
    | zero => cases ends
    | succ n ih =>
      have ne : i ≠ x := by simpa [above] using avoids 0 (Nat.succ_pos n)
      cases up : f i with
      | none => exact ⟨0, ne, up⟩
      | some p =>
        have next : ∀ k, above f (k + 1) i = above f k p := by
          intro k
          rw [above, up, Option.bind_some]
        rw [next] at ends
        obtain ⟨d, rest⟩ := ih ends fun k hk => next k ▸ avoids (k + 1) (by omega)
        exact ⟨d + 1, ne, p, up, rest⟩

/-! ## New links -/

/-- A climb that avoids `c` is not touched by a new link of `c`. -/
theorem EndsAvoiding.acc_update {c p : Nat} : ∀ {d i : Nat}, EndsAvoiding f c d i →
    Acc (Link (Function.update f c (some p))) i := by
  intro d
  induction d with
  | zero =>
    intro i h
    refine Acc.intro i fun q hq => ?_
    rw [Link, Function.update_of_ne h.1, h.2] at hq
    cases hq
  | succ d ih =>
    intro i h
    obtain ⟨ne, q, hq, hd⟩ := h
    refine Acc.intro i fun r hr => ?_
    rw [Link, Function.update_of_ne ne, hq] at hr
    cases hr
    exact ih hd

/-- A new link keeps every climb finite if the climb from the new parent avoids the child. -/
theorem grounded_update {c p d : Nat} (h : Grounded f) (avoids : EndsAvoiding f c d p) :
    Grounded (Function.update f c (some p)) := by
  intro i
  have child : Acc (Link (Function.update f c (some p))) c := by
    refine Acc.intro c fun q hq => ?_
    rw [Link, Function.update_self] at hq
    cases hq
    exact avoids.acc_update
  induction h i with
  | intro i _ ih =>
    by_cases hi : i = c
    · exact hi ▸ child
    · refine Acc.intro i fun q hq => ?_
      rw [Link, Function.update_of_ne hi] at hq
      exact ih q hq

theorem grounded_none : Grounded fun _ => none := by
  intro i
  refine Acc.intro i fun q hq => ?_
  cases hq

/-- Links that lower a rank never lead to a position of the rank where the climb started. -/
theorem exists_endsAvoiding_of_rank (rank : Nat → Nat) {c : Nat}
    (lowers : ∀ i p, f i = some p → rank p < rank i) :
    ∀ (r i : Nat), rank i ≤ r → rank i < rank c → ∃ d, EndsAvoiding f c d i := by
  intro r
  induction r with
  | zero =>
    intro i hr hc
    refine ⟨0, by rintro rfl; omega, ?_⟩
    cases hp : f i with
    | none => rfl
    | some p =>
      have := lowers i p hp
      omega
  | succ r ih =>
    intro i hr hc
    have ne : i ≠ c := by rintro rfl; omega
    cases hp : f i with
    | none => exact ⟨0, ne, hp⟩
    | some p =>
      have low := lowers i p hp
      obtain ⟨d, hd⟩ := ih p (by omega) (by omega)
      exact ⟨d + 1, ne, p, hp, hd⟩

end Rollup.Ancestry

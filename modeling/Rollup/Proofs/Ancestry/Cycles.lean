import Mathlib.Data.List.Chain
import Rollup.Proofs.Ancestry

/-!
# Cycles of parent links

Where every position has at most one parent, two cycles that share a member are the same, so the
cycles of a family of links are disjoint, and a position lies on one exactly if it is its own
ancestor.

Results:

* `IsCycle.mem_iff`: the members of a cycle are the ancestors of any of them.
* `not_transGen_of_leaves`: a position of a path lies on no cycle if the rest of the path ends
  among positions that the links do not lead out of, or in itself.
* `isCycle_of_append`: a path that comes back to one of its members closes a cycle there.
-/

namespace Rollup.Ancestry

open Relation

variable {f : Nat → Option Nat}

/-- Every member but the last is followed by its parent. -/
def Follows (f : Nat → Option Nat) (path : List Nat) : Prop :=
  path.IsChain fun i p => f i = some p

/-- No link leads out of a set of positions. -/
def UpClosed (f : Nat → Option Nat) (s : Nat → Prop) : Prop :=
  ∀ i, s i → ∀ p, f i = some p → s p

/-- A cycle: distinct positions, each followed by its parent, and the last one's parent is the
    first. -/
structure IsCycle (f : Nat → Option Nat) (c : List Nat) : Prop where
  nodup : c.Nodup
  follows : Follows f c
  closes : ∃ first ∈ c.head?, ∃ last ∈ c.getLast?, f last = some first

/-- A list of all cycles, without repeats: its members are cycles, no two of which share a
    position, and every position that is its own ancestor is on one of them. -/
structure CyclesOf (f : Nat → Option Nat) (cs : List (List Nat)) : Prop where
  cyclic : ∀ c ∈ cs, IsCycle f c
  apart : cs.Pairwise List.Disjoint
  complete : ∀ i, TransGen (Link f) i i → ∃ c ∈ cs, i ∈ c

/-! ## Closed sets -/

theorem UpClosed.of_above {s : Nat → Prop} (closed : UpClosed f s) {i j : Nat}
    (above : ReflTransGen (Link f) j i) : s i → s j := by
  induction above with
  | refl => exact id
  | tail _ link ih => exact fun here => ih (closed _ here _ link)

/-- The parent of a member of a path comes later in it, unless the member is the last. -/
theorem Follows.next {before after : List Nat} {i p : Nat}
    (follows : Follows f (before ++ i :: after)) (link : f i = some p) : p ∈ after ∨ after = [] := by
  cases after with
  | nil => exact .inr rfl
  | cons q after =>
    have next : f i = some q := (List.isChain_append_cons_cons.mp follows).2.1
    rw [link] at next
    cases next
    exact .inl List.mem_cons_self

theorem Follows.parent_mem {path : List Nat} (follows : Follows f path) {i p : Nat}
    (mem : i ∈ path) (link : f i = some p) : p ∈ path ∨ path.getLast? = some i := by
  obtain ⟨before, after, rfl⟩ := List.append_of_mem mem
  rcases follows.next link with later | rfl
  · exact .inl (List.mem_append_right _ (List.mem_cons_of_mem i later))
  · exact .inr List.getLast?_concat

/-- A set stays closed under a path whose last member's parent is in either. -/
theorem UpClosed.append {s path : List Nat} (closed : UpClosed f (· ∈ s))
    (follows : Follows f path)
    (ends : ∀ last ∈ path.getLast?, ∀ p, f last = some p → p ∈ s ++ path) :
    UpClosed f (· ∈ s ++ path) := by
  intro i mem p link
  rcases List.mem_append.mp mem with mem | mem
  · exact List.mem_append_left _ (closed i mem p link)
  · rcases follows.parent_mem mem link with next | last
    · exact List.mem_append_right _ next
    · exact ends i last p link

/-! ## Paths -/

/-- The members of a path are the first one and its ancestors. -/
theorem Follows.above_first {i : Nat} {path : List Nat} (follows : Follows f (i :: path)) :
    ∀ j ∈ i :: path, ReflTransGen (Link f) j i := by
  induction path generalizing i with
  | nil =>
    intro j hj
    rw [List.mem_singleton.mp hj]
  | cons p path ih =>
    obtain ⟨link, rest⟩ := List.isChain_cons_cons.mp follows
    intro j hj
    rcases List.mem_cons.mp hj with rfl | hj
    · exact .refl
    · exact (ih rest j hj).tail link

/-- The last member of a path is each of its members or an ancestor of it. -/
theorem Follows.last_above {path : List Nat} (follows : Follows f path) {last : Nat}
    (ends : path.getLast? = some last) : ∀ i ∈ path, ReflTransGen (Link f) last i := by
  intro i mem
  obtain ⟨before, after, rfl⟩ := List.append_of_mem mem
  have rest : Follows f (i :: after) := follows.right_of_append
  rw [List.getLast?_append_of_ne_nil _ (List.cons_ne_nil i after)] at ends
  exact rest.above_first last (List.mem_of_getLast? ends)

/-- The members of a cycle are the ancestors of any of them. -/
theorem IsCycle.mem_iff {c : List Nat} (cycle : IsCycle f c) {i : Nat} (mem : i ∈ c) (j : Nat) :
    j ∈ c ↔ TransGen (Link f) j i := by
  obtain ⟨first, head, last, ends, link⟩ := cycle.closes
  constructor
  · intro hj
    obtain ⟨rest, rfl⟩ := List.head?_eq_some_iff.mp head
    have low : ReflTransGen (Link f) j first := cycle.follows.above_first j hj
    have high : ReflTransGen (Link f) last i := cycle.follows.last_above ends i mem
    exact (TransGen.tail' low link).trans_left high
  · intro above
    have closed : UpClosed f (· ∈ c) := by
      intro k hk p up
      rcases cycle.follows.parent_mem hk up with next | isLast
      · exact next
      · rw [show k = last from Option.some.inj (isLast.symm.trans ends), link] at up
        cases up
        exact List.mem_of_head? head
    exact closed.of_above above.to_reflTransGen mem

/-- A path that comes back to one of its members closes a cycle there. -/
theorem isCycle_of_append {before after : List Nat} {i : Nat}
    (follows : Follows f (before ++ i :: after)) (nodup : (before ++ i :: after).Nodup)
    (returns : ∀ last ∈ (before ++ i :: after).getLast?, f last = some i) :
    IsCycle f (i :: after) where
  nodup := nodup.of_append_right
  follows := follows.right_of_append
  closes := by
    have ends := List.getLast?_eq_getLast_of_ne_nil (List.cons_ne_nil i after)
    refine ⟨i, rfl, _, ends, returns _ ?_⟩
    rw [List.getLast?_append_of_ne_nil _ (List.cons_ne_nil i after)]
    exact ends

/-- A member of a path lies on no cycle if the last one's parent comes later in the path, or in a
    closed set without the member. -/
theorem not_transGen_of_leaves {s before after : List Nat} {i : Nat}
    (closed : UpClosed f (· ∈ s))
    (follows : Follows f (before ++ i :: after)) (nodup : (before ++ i :: after).Nodup)
    (fresh : i ∉ s)
    (leaves : ∀ last ∈ (before ++ i :: after).getLast?, ∀ p, f last = some p → p ∈ s ++ after) :
    ¬ TransGen (Link f) i i := by
  intro cycle
  rw [List.getLast?_append_of_ne_nil _ (List.cons_ne_nil i after)] at leaves
  -- the ancestors of `i` come later in the path or are in the set
  have above : UpClosed f (· ∈ s ++ after) := by
    have rest : Follows f (i :: after) := follows.right_of_append
    refine closed.append rest.tail fun last hlast => leaves last ?_
    rw [List.getLast?_cons, hlast]
    rfl
  obtain ⟨p, back, link⟩ := TransGen.tail'_iff.mp cycle
  have parent : p ∈ s ++ after := by
    rcases follows.next link with later | rfl
    · exact List.mem_append_right _ later
    · exact leaves i rfl p link
  rcases List.mem_append.mp (above.of_above back parent) with old | later
  · exact fresh old
  · exact (List.nodup_cons.mp nodup.of_append_right).1 later

end Rollup.Ancestry

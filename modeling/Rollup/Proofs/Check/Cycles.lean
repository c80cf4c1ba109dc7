import Mathlib.Data.List.Perm.Subperm
import Rollup.Check.Cycles
import Rollup.Proofs.Ancestry.Cycles
import Rollup.Proofs.Export.Order
import Rollup.Proofs.Forest

/-!
# The cycles found are the cycles there are

A walk enters positions that no walk before it has passed, so it has a path without repeats. What
the walks have passed is closed under parents. A position on a cycle that a walk enters is
therefore on the cycle that the walk closes, and one that was passed before belongs to an earlier
walk.

Results:

* `ascendFrom_add`: more steps than there are positions change nothing.
* `cyclesOf_cycles`: the walks find every cycle of links once.
* `cycles_exact`: the findings for a list of nodes are one for each cycle of its parent links, with
  the members in the order of the links.
-/

namespace Rollup

namespace Forest

open Ancestry Relation

variable {f : Forest} {passed : List Nat} {start : Nat}

/-! ## One walk -/

/-- A walk from `start` that is about to enter `i`. -/
structure Walks (f : Forest) (passed : List Nat) (start : Nat) (path : List Nat) (i : Nat) :
    Prop where
  nodup : path.Nodup
  follows : Follows f.parent? (path ++ [i])
  fresh : ∀ j ∈ path, j ∉ passed
  inside : ∀ j ∈ path ++ [i], j < f.size
  started : start ∈ path ++ [i]

/-- A walk from `start` that has ended. It came back to its path, or it left the forest or met what
    was passed before. -/
structure Ended (f : Forest) (passed : List Nat) (start : Nat) (w : Ascent) : Prop where
  nodup : w.path.Nodup
  follows : Follows f.parent? w.path
  fresh : ∀ j ∈ w.path, j ∉ passed
  started : start ∈ w.path
  returns : ∀ i ∈ w.back, i ∈ w.path ∧ ∀ last ∈ w.path.getLast?, f.parent? last = some i
  leaves : w.back = none → ∀ last ∈ w.path.getLast?, ∀ p, f.parent? last = some p → p ∈ passed

theorem walks_nil (bound : start < f.size) : f.Walks passed start [] start where
  nodup := List.nodup_nil
  follows := List.isChain_singleton start
  fresh := by simp
  inside := by simpa using bound
  started := by simp

theorem Walks.length_le {path : List Nat} {i : Nat} (walk : f.Walks passed start path i) :
    path.length ≤ f.size := by
  have within : path ⊆ List.range f.size := by
    intro j hj
    exact List.mem_range.mpr (walk.inside j (List.mem_append_left _ hj))
  simpa using (List.subperm_of_subset walk.nodup within).length_le

/-- The path of a walk once it has entered a position. -/
theorem Walks.entered {path : List Nat} {i : Nat} (walk : f.Walks passed start path i)
    (away : i ∉ path) (unpassed : i ∉ passed) :
    (path ++ [i]).Nodup ∧ ∀ j ∈ path ++ [i], j ∉ passed := by
  refine ⟨?_, fun j hj => ?_⟩
  · rw [← List.concat_eq_append]
    exact walk.nodup.concat away
  · rcases List.mem_append.mp hj with hj | hj
    · exact walk.fresh j hj
    · rwa [List.mem_singleton.mp hj]

theorem Walks.step {path : List Nat} {i p : Nat} (walk : f.Walks passed start path i)
    (inside : ∀ {c p : Nat}, f.parent? c = some p → p < f.size) (away : i ∉ path)
    (unpassed : i ∉ passed) (link : f.parent? i = some p) :
    f.Walks passed start (path ++ [i]) p where
  nodup := (walk.entered away unpassed).1
  follows := by
    rw [List.append_assoc]
    exact List.isChain_append_cons_cons.mpr ⟨walk.follows, link, List.isChain_singleton p⟩
  fresh := (walk.entered away unpassed).2
  inside := by
    intro j hj
    rcases List.mem_append.mp hj with hj | hj
    · exact walk.inside j hj
    · rw [List.mem_singleton.mp hj]
      exact inside link
  started := List.mem_append_left _ walk.started

theorem Walks.parent_last {path : List Nat} {i last : Nat} (walk : f.Walks passed start path i)
    (ends : path.getLast? = some last) : f.parent? last = some i := by
  obtain ⟨before, rfl⟩ := List.getLast?_eq_some_iff.mp ends
  have follows := walk.follows
  rw [List.append_assoc] at follows
  exact (List.isChain_append_cons_cons.mp follows).2.1

/-- A walk with a step for each position it may still enter comes to its end. -/
theorem Walks.ended (inside : ∀ {c p : Nat}, f.parent? c = some p → p < f.size)
    (unpassed : start ∉ passed) : ∀ {steps : Nat} {path : List Nat} {i : Nat},
      f.Walks passed start path i → f.size < path.length + steps →
      f.Ended passed start (f.ascendFrom passed steps path i) := by
  intro steps
  induction steps with
  | zero =>
    intro path i walk enough
    have := walk.length_le
    omega
  | succ steps ih =>
    intro path i walk enough
    have follows : Follows f.parent? path := walk.follows.left_of_append
    rw [ascendFrom]
    split_ifs with back seen
    · refine ⟨walk.nodup, follows, walk.fresh, ?_, ?_, by simp⟩
      · rcases List.mem_append.mp walk.started with here | here
        · exact here
        · rwa [List.mem_singleton.mp here]
      · rintro j ⟨⟩
        exact ⟨back, fun last ends => walk.parent_last ends⟩
    · refine ⟨walk.nodup, follows, walk.fresh, ?_, by simp, ?_⟩
      · rcases List.mem_append.mp walk.started with here | here
        · exact here
        · rw [List.mem_singleton.mp here] at unpassed
          exact absurd seen unpassed
      · intro _ last ends p link
        rw [walk.parent_last ends] at link
        cases link
        exact seen
    · cases link : f.parent? i with
      | none =>
        obtain ⟨nodup, fresh⟩ := walk.entered back seen
        refine ⟨nodup, walk.follows, fresh, walk.started, by simp, ?_⟩
        intro _ last ends p up
        rw [List.getLast?_concat, Option.mem_some_iff] at ends
        rw [← ends, link] at up
        cases up
      | some p =>
        refine ih (walk.step inside back seen link) ?_
        rw [List.length_append, List.length_singleton]
        omega

/-- More steps than there are positions change nothing. -/
theorem ascendFrom_add (inside : ∀ {c p : Nat}, f.parent? c = some p → p < f.size)
    (extra : Nat) : ∀ {steps : Nat} {path : List Nat} {i : Nat},
      f.Walks passed start path i → f.size < path.length + steps →
      f.ascendFrom passed (steps + extra) path i = f.ascendFrom passed steps path i := by
  intro steps
  induction steps with
  | zero =>
    intro path i walk enough
    have := walk.length_le
    omega
  | succ steps ih =>
    intro path i walk enough
    rw [Nat.succ_add_eq_add_succ, Nat.add_succ, ascendFrom, ascendFrom]
    split_ifs with back seen
    · rfl
    · rfl
    · cases link : f.parent? i with
      | none => rfl
      | some p =>
        refine ih (walk.step inside back seen link) ?_
        rw [List.length_append, List.length_singleton]
        omega

/-! ## The cycle of a walk -/

theorem Ascent.mem_cycle? {w : Ascent} {c : List Nat} (h : c ∈ w.cycle?) :
    ∃ i ∈ w.back, c = w.path.dropWhile (· ≠ i) := by
  obtain ⟨i, back, rfl⟩ := Option.map_eq_some_iff.mp h
  exact ⟨i, back, rfl⟩

/-- The cycle of a walk is the part of its path from the position that it came back to. -/
theorem dropWhile_ne_append {before after : List Nat} {i : Nat} (first : i ∉ before) :
    (before ++ i :: after).dropWhile (· ≠ i) = i :: after := by
  rw [List.dropWhile_append_of_pos, List.dropWhile_cons_of_neg (by simp)]
  intro j hj
  simpa using fun (h : j = i) => first (h ▸ hj)

theorem Ended.isCycle {w : Ascent} (ended : f.Ended passed start w) {c : List Nat}
    (h : c ∈ w.cycle?) : IsCycle f.parent? c ∧ c ⊆ w.path := by
  obtain ⟨i, back, rfl⟩ := Ascent.mem_cycle? h
  obtain ⟨mem, returns⟩ := ended.returns i back
  obtain ⟨before, after, eq, first⟩ := List.eq_append_cons_of_mem mem
  have follows := ended.follows
  have nodup := ended.nodup
  rw [eq] at follows nodup returns ⊢
  rw [dropWhile_ne_append first]
  exact ⟨isCycle_of_append follows nodup returns, List.subset_append_right _ _⟩

/-- What was passed stays closed under parents. -/
theorem Ended.upClosed {w : Ascent} (ended : f.Ended passed start w)
    (closed : UpClosed f.parent? (· ∈ passed)) : UpClosed f.parent? (· ∈ passed ++ w.path) := by
  refine closed.append ended.follows fun last ends p link => ?_
  cases back : w.back with
  | none => exact List.mem_append_left _ (ended.leaves back last ends p link)
  | some i =>
    obtain ⟨mem, returns⟩ := ended.returns i back
    rw [returns last ends] at link
    cases link
    exact List.mem_append_right _ mem

/-- Every position of a walk that is on a cycle is on the one that the walk closes. -/
theorem Ended.mem_cycle {w : Ascent} (ended : f.Ended passed start w)
    (closed : UpClosed f.parent? (· ∈ passed)) {i : Nat} (mem : i ∈ w.path)
    (cycle : TransGen (Link f.parent?) i i) : ∃ c ∈ w.cycle?, i ∈ c := by
  have follows := ended.follows
  have nodup := ended.nodup
  have fresh := ended.fresh i mem
  cases back : w.back with
  | none =>
    obtain ⟨before, after, eq⟩ := List.append_of_mem mem
    have leaves := ended.leaves back
    rw [eq] at follows nodup leaves
    refine absurd cycle (not_transGen_of_leaves closed follows nodup fresh ?_)
    exact fun last ends p link => List.mem_append_left _ (leaves last ends p link)
  | some b =>
    obtain ⟨there, returns⟩ := ended.returns b back
    obtain ⟨before, after, eq, first⟩ := List.eq_append_cons_of_mem there
    refine ⟨b :: after, ?_, ?_⟩
    · rw [Ascent.cycle?, back, Option.map_some, eq, dropWhile_ne_append first]
      rfl
    · rw [eq] at mem
      rcases List.mem_append.mp mem with early | mem
      · -- before the cycle the walk only moves on
        obtain ⟨before', between, rfl⟩ := List.append_of_mem early
        rw [eq, List.append_assoc, List.cons_append] at follows nodup returns
        refine absurd cycle (not_transGen_of_leaves closed follows nodup fresh ?_)
        intro last ends p link
        rw [returns last ends] at link
        cases link
        simp
      · exact mem

/-! ## All walks -/

/-- The cycles that walks from some starts find outside what was passed before. -/
structure Swept (f : Forest) (passed starts : List Nat) (cs : List (List Nat)) : Prop where
  cyclic : ∀ c ∈ cs, IsCycle f.parent? c
  apart : cs.Pairwise List.Disjoint
  fresh : ∀ c ∈ cs, ∀ i ∈ c, i ∉ passed
  complete : ∀ i ∈ starts, TransGen (Link f.parent?) i i → i ∈ passed ∨ ∃ c ∈ cs, i ∈ c

theorem swept_cyclesFrom (inside : ∀ {c p : Nat}, f.parent? c = some p → p < f.size)
    (starts : List Nat) (within : ∀ i ∈ starts, i < f.size) : ∀ {passed : List Nat},
      UpClosed f.parent? (· ∈ passed) → f.Swept passed starts (f.cyclesFrom passed starts) := by
  induction starts with
  | nil =>
    intro passed _
    exact ⟨by simp [cyclesFrom], .nil, by simp [cyclesFrom], by simp⟩
  | cons i starts ih =>
    intro passed closed
    have rest := fun j hj => within j (List.mem_cons_of_mem i hj)
    rw [cyclesFrom]
    split_ifs with old
    · have swept := ih rest closed
      refine ⟨swept.cyclic, swept.apart, swept.fresh, fun j hj cycle => ?_⟩
      rcases List.mem_cons.mp hj with rfl | hj
      · exact .inl old
      · exact swept.complete j hj cycle
    · have ended : f.Ended passed i (f.ascend passed i) :=
        (walks_nil (within i List.mem_cons_self)).ended inside old (by simp)
      have swept := ih rest (ended.upClosed closed)
      constructor
      · intro c hc
        rcases List.mem_append.mp hc with hc | hc
        · exact (ended.isCycle (Option.mem_toList.mp hc)).1
        · exact swept.cyclic c hc
      · refine List.pairwise_append.mpr ⟨?_, swept.apart, fun c hc d hd j hj hj' => ?_⟩
        · cases (f.ascend passed i).cycle? <;> simp
        · have mem := (ended.isCycle (Option.mem_toList.mp hc)).2 hj
          exact swept.fresh d hd j hj' (List.mem_append_right _ mem)
      · intro c hc j hj
        rcases List.mem_append.mp hc with hc | hc
        · exact ended.fresh j ((ended.isCycle (Option.mem_toList.mp hc)).2 hj)
        · exact fun old => swept.fresh c hc j hj (List.mem_append_left _ old)
      · -- a start on a cycle was passed before, is on this walk, or is left to the others
        intro j hj cycle
        have here : j ∈ (f.ascend passed i).path → ∃ c ∈ (f.ascend passed i).cycle?.toList ++
            f.cyclesFrom (passed ++ (f.ascend passed i).path) starts, j ∈ c := by
          intro mem
          obtain ⟨c, hc, hj⟩ := ended.mem_cycle closed mem cycle
          exact ⟨c, List.mem_append_left _ (Option.mem_toList.mpr hc), hj⟩
        rcases List.mem_cons.mp hj with rfl | hj
        · exact .inr (here ended.started)
        · rcases swept.complete j hj cycle with seen | ⟨c, hc, hj⟩
          · exact (List.mem_append.mp seen).imp_right here
          · exact .inr ⟨c, List.mem_append_right _ hc, hj⟩

/-- The walks find every cycle of links once. -/
theorem cyclesOf_cycles (child : ∀ {c p : Nat}, f.parent? c = some p → c < f.size)
    (inside : ∀ {c p : Nat}, f.parent? c = some p → p < f.size) :
    CyclesOf f.parent? f.cycles := by
  have closed : UpClosed f.parent? (· ∈ ([] : List Nat)) := by
    intro i hi
    cases hi
  have swept := swept_cyclesFrom inside (List.range f.size) (fun i hi => List.mem_range.mp hi)
    closed
  refine ⟨swept.cyclic, swept.apart, fun i cycle => ?_⟩
  obtain ⟨p, -, link⟩ := TransGen.tail'_iff.mp cycle
  rcases swept.complete i (List.mem_range.mpr (child link)) cycle with old | found
  · cases old
  · exact found

theorem lt_size_of_link {nodes : List Node} {i p : Nat}
    (h : (ofNodes nodes).parent? i = some p) : p < (ofNodes nodes).size := by
  obtain ⟨-, m, -, there, -⟩ := link_ofNodes h
  exact (List.getElem?_eq_some_iff.mp there).1

end Forest

/-! ## Findings -/

namespace Check

open Ancestry Relation

/-- A finding that reports the cycle of the nodes at some positions. -/
structure Reports (nodes : List Node) (cycle : List Nat) (x : Finding) : Prop where
  kind : x.kind = .circularReference
  details : ∃ members : List Node, cycle.map (nodes[·]?) = members.map some ∧
    x.details = .object [("cycle", .texts (members.map (·.hierarchyId)))]

theorem reports_circularReference {nodes : List Node} {cycle : List Nat}
    (inside : ∀ i ∈ cycle, i < nodes.length) :
    Reports nodes cycle (circularReference (Forest.ofNodes nodes) cycle) := by
  refine ⟨rfl, cycle.filterMap (nodes[·]?), ?_, rfl⟩
  rw [List.map_filterMap, ← List.filterMap_eq_map]
  refine List.filterMap_congr fun i hi => ?_
  show some (nodes[i]?) = (nodes[i]?).map some
  rw [List.getElem?_eq_getElem (inside i hi), Option.map_some]

/-- The findings for a list of nodes are one for each cycle of its parent links, with the members
    in the order of the links, and no walk is cut short by the bound on its steps. -/
theorem cycles_exact (nodes : List Node) :
    (∀ (passed : List Nat) (i extra : Nat), i < nodes.length →
      (Forest.ofNodes nodes).ascendFrom passed (nodes.length + 1 + extra) [] i =
        (Forest.ofNodes nodes).ascend passed i) ∧
    ∃ cs, CyclesOf (Forest.ofNodes nodes).parent? cs ∧
      List.Forall₂ (Reports nodes) cs (Check.cycles (Forest.ofNodes nodes)) := by
  have child : ∀ {c p : Nat}, (Forest.ofNodes nodes).parent? c = some p → c < nodes.length :=
    Forest.lt_size_of_parent? (Forest.length_parents_ofNodes nodes)
  have found := Forest.cyclesOf_cycles child Forest.lt_size_of_link
  refine ⟨fun passed i extra bound => ?_, (Forest.ofNodes nodes).cycles, found, ?_⟩
  · refine Forest.ascendFrom_add Forest.lt_size_of_link extra (Forest.walks_nil bound) ?_
    rw [List.length_nil, Nat.zero_add]
    exact Nat.lt_succ_self _
  · rw [Check.cycles, List.forall₂_map_right_iff, List.forall₂_same]
    intro c hc
    refine reports_circularReference fun i hi => ?_
    have own := ((found.cyclic c hc).mem_iff hi i).mp hi
    obtain ⟨p, -, link⟩ := TransGen.tail'_iff.mp own
    exact child link

end Check

end Rollup

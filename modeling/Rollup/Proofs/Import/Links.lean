import Mathlib.Tactic.SplitIfs
import Rollup.Import.Parents
import Rollup.Proofs.Ancestry

/-!
# The links of a batch

Linking changes nothing of a batch but the parents of its new nodes, and the parent that a dialect
proposes for a node does not depend on the links. So the links are a function of positions, built
up by a fold over the new positions.

Results:

* `wouldCycle_eq_false_iff`: a link closes no cycle exactly if the climb from the parent ends
  without meeting the child. The bound on the number of steps is never what decides.
* `wouldCycle_exact`: the same link by link, whatever cycles the batch has already.
* `reaches_proposedParent`: a proposed parent is found by a key.
* `link_eq`: the batch after linking.
* `links_proposed`, `grounded_links`: every link is a proposed one, and every climb ends.
* `links_eq_proposal`: if the proposals lower a rank, all of them are linked.
-/

namespace Rollup.Batch

open Ancestry

/-! ## Climbing in a batch -/

theorem climbMeets_eq_false_iff (b : Batch) (child : Nat) : ∀ steps i : Nat,
    b.climbMeets child steps i = false ↔ ∃ d < steps, EndsAvoiding b.parent? child d i := by
  intro steps
  induction steps with
  | zero =>
    intro i
    simp [climbMeets]
  | succ steps ih =>
    intro i
    rw [climbMeets]
    split_ifs with same
    · refine ⟨fun h => (by cases h), ?_⟩
      rintro ⟨d, -, h⟩
      exact absurd same h.ne
    · cases hp : b.parent? i with
      | none =>
        refine ⟨fun _ => ⟨0, by omega, same, hp⟩, fun _ => rfl⟩
      | some p =>
        rw [ih p]
        constructor
        · rintro ⟨d, hd, h⟩
          exact ⟨d + 1, by omega, same, p, hp, h⟩
        · rintro ⟨d, hd, h⟩
          cases d with
          | zero => exact absurd h.2 (by rw [hp]; simp)
          | succ d =>
            obtain ⟨-, q, hq, h⟩ := h
            rw [hp] at hq
            cases hq
            exact ⟨d, by omega, h⟩

/-- A link closes no cycle exactly if the climb from the parent ends without meeting the child. -/
theorem wouldCycle_eq_false_iff {b : Batch} {child parent : Nat} (start : parent < b.size)
    (valid : ∀ c p, b.parent? c = some p → p < b.size) :
    b.wouldCycle child parent = false ↔ ∃ d, EndsAvoiding b.parent? child d parent := by
  rw [wouldCycle, climbMeets_eq_false_iff]
  constructor
  · rintro ⟨d, -, h⟩
    exact ⟨d, h⟩
  · rintro ⟨d, h⟩
    exact ⟨d, h.lt_bound start valid, h⟩

/-- Links lead to nodes of the batch if those of its entries do. -/
theorem lt_size_of_parent? {b : Batch} (inside : ∀ e ∈ b.entries, ∀ p ∈ e.parent, p < b.size)
    (i p : Nat) (up : b.parent? i = some p) : p < b.size := by
  obtain ⟨e, here, link⟩ := Option.bind_eq_some_iff.mp up
  exact inside e (List.mem_of_getElem? here) p link

/-- The check for cycles answers that a link closes none exactly if the climb from the parent ends
    after finitely many links, none of which has led to the child. Climbing for longer would not
    change an answer. -/
theorem wouldCycle_exact {b : Batch} (inside : ∀ e ∈ b.entries, ∀ p ∈ e.parent, p < b.size)
    {parent : Nat} (start : parent < b.size) (child : Nat) :
    (b.wouldCycle child parent = false ↔
      ∃ n, above b.parent? n parent = none ∧ ∀ k < n, above b.parent? k parent ≠ some child) ∧
    ∀ extra, b.climbMeets child (b.size + extra) parent = b.wouldCycle child parent := by
  have valid := lt_size_of_parent? inside
  refine ⟨(wouldCycle_eq_false_iff start valid).trans exists_endsAvoiding_iff, fun extra => ?_⟩
  have same : b.climbMeets child (b.size + extra) parent = false ↔
      b.wouldCycle child parent = false := by
    rw [climbMeets_eq_false_iff, wouldCycle_eq_false_iff start valid]
    constructor
    · rintro ⟨d, -, ends⟩
      exact ⟨d, ends⟩
    · rintro ⟨d, ends⟩
      -- a climb that ends is shorter than the batch, so any larger bound lets it end too
      exact ⟨d, Nat.lt_add_right extra (ends.lt_bound start valid), ends⟩
  exact Bool.eq_iff_iff.mpr (not_iff_not.mp (by simpa using same))

/-- Four nodes in a row, and two that are below each other. -/
def rowAndLoop : Batch where
  entries := [none, some 0, some 1, some 2, some 5, some 4].map fun parent =>
    { node := { hierarchyId := "A", projectId := "P", name := "A" }
      origin := .imported
      path := []
      parent := parent }

theorem wouldCycle_exact_rowAndLoop :
    (∀ e ∈ rowAndLoop.entries, ∀ p ∈ e.parent, p < rowAndLoop.size) ∧
      rowAndLoop.wouldCycle 4 3 = false ∧ rowAndLoop.wouldCycle 1 3 = true ∧
      (¬ ∃ n, above rowAndLoop.parent? n 4 = none ∧
        ∀ k < n, above rowAndLoop.parent? k 4 ≠ some 0) ∧
      rowAndLoop.climbMeets 0 100 4 = true := by
  have inside : ∀ e ∈ rowAndLoop.entries, ∀ p ∈ e.parent, p < rowAndLoop.size := by decide
  obtain ⟨row, -⟩ := wouldCycle_exact inside (show 3 < rowAndLoop.size by decide) 4
  obtain ⟨loop, longer⟩ := wouldCycle_exact inside (show 4 < rowAndLoop.size by decide) 0
  refine ⟨inside, row.mpr ⟨4, by decide, by decide⟩, by decide, fun ends => ?_,
    (longer 94).trans (by decide)⟩
  exact absurd (loop.mpr ends) (by decide)

/-! ## Batches with given links -/

/-- The batch with the given links. -/
def withParents (b : Batch) (f : Nat → Option Nat) : Batch :=
  { b with entries := b.entries.mapIdx fun i e => { e with parent := f i } }

@[simp] theorem size_withParents (b : Batch) (f : Nat → Option Nat) :
    (b.withParents f).size = b.size := by
  simp [withParents, size]

@[simp] theorem getElem?_withParents (b : Batch) (f : Nat → Option Nat) (i : Nat) :
    (b.withParents f).entries[i]? = (b.entries[i]?).map fun e => { e with parent := f i } := by
  simp [withParents]

theorem parent?_withParents {b : Batch} {f : Nat → Option Nat}
    (inside : ∀ i p, f i = some p → i < b.size) : (b.withParents f).parent? = f := by
  funext i
  rw [parent?, getElem?_withParents]
  cases he : b.entries[i]? with
  | some e => rfl
  | none =>
    cases hf : f i with
    | none => rfl
    | some p =>
      have := inside i p hf
      rw [List.getElem?_eq_none_iff] at he
      rw [size] at this
      omega

theorem withParents_none {b : Batch} (unlinked : ∀ e ∈ b.entries, e.parent = none) :
    b.withParents (fun _ => none) = b := by
  have same : (b.entries.mapIdx fun _ e => { e with parent := none }) = b.entries := by
    refine List.ext_getElem? fun i => ?_
    rw [List.getElem?_mapIdx]
    cases he : b.entries[i]? with
    | none => rfl
    | some e =>
      have := unlinked e (List.mem_of_getElem? he)
      obtain ⟨node, origin, path, parent, group⟩ := e
      subst this
      rfl
  rw [withParents, same]

theorem modify_withParents (b : Batch) (f : Nat → Option Nat) (i p : Nat) :
    (b.withParents f).modify i (fun e => { e with parent := some p }) =
      b.withParents (Function.update f i (some p)) := by
  have same : ((b.withParents f).entries.modify i fun e => { e with parent := some p }) =
      (b.withParents (Function.update f i (some p))).entries := by
    refine List.ext_getElem? fun j => ?_
    rw [List.getElem?_modify, getElem?_withParents, getElem?_withParents]
    by_cases h : i = j
    · subst h
      cases b.entries[i]? <;> simp
    · rw [Function.update_of_ne (Ne.symm h)]
      simp [h]
  rw [modify, same]
  rfl

/-- The proposed parent does not depend on the links. -/
theorem proposedParent_withParents (b : Batch) (f : Nat → Option Nat) (d : Dialect)
    (groups : List RowGroup) (i : Nat) (e : BatchEntry) (q : Option Nat) :
    (b.withParents f).proposedParent d groups i { e with parent := q } =
      b.proposedParent d groups i e := by
  cases d <;> rfl

/-! ## Where a parent is found -/

theorem except_eq_some_iff {i q : Nat} {candidate : Option Nat} :
    except i candidate = some q ↔ candidate = some q ∧ q ≠ i := by
  rw [except, Option.filter_eq_some_iff, bne_iff_ne]

/-- The parent of a standard node as the first of three answers. -/
theorem standardParent_fst (b : Batch) (i : Nat) (e : BatchEntry) (row : HierarchyRow) :
    (b.standardParent i e (some row)).1 =
      ((b.byParentXref? i row).or (b.byParentId? i row)).or
        (if row.isRoot = some true then none
          else (LevelPath.parent? e.path).bind fun path => except i (b.byPath? path)) := by
  unfold standardParent
  dsimp only
  cases b.byParentXref? i row with
  | some q => rfl
  | none =>
    cases b.byParentId? i row with
    | some q => rfl
    | none =>
      dsimp only
      split_ifs
      · rfl
      · rfl

/-- The parent of a legacy node as the first of two answers. -/
theorem legacyParent_fst (b : Batch) (i : Nat) (e : BatchEntry) (row : HierarchyRow) :
    (b.legacyParent i e (some row)).1 =
      (b.byParentXref? i row).or (b.legacyPathParent i e).1 := by
  unfold legacyParent
  dsimp only
  cases b.byParentXref? i row <;> rfl

/-- Some key of a batch leads to a position. -/
def Reaches (b : Batch) (q : Nat) : Prop :=
  (∃ key, b.byXref? key = some q) ∨ (∃ id, b.byId? id = some q) ∨
    (∃ path, b.byPath? path = some q) ∨ ∃ depth name, b.byDepthName? depth name = some q

section Reaches

variable {b : Batch} {i q : Nat}

theorem reaches_byParentXref? {row : HierarchyRow} (found : b.byParentXref? i row = some q) :
    b.Reaches q := by
  obtain ⟨key, -, found⟩ := Option.bind_eq_some_iff.mp found
  exact Or.inl ⟨key, (except_eq_some_iff.mp found).1⟩

theorem reaches_byParentId? {row : HierarchyRow} (found : b.byParentId? i row = some q) :
    b.Reaches q := by
  obtain ⟨id, -, found⟩ := Option.bind_eq_some_iff.mp found
  exact Or.inr (Or.inl ⟨id, (except_eq_some_iff.mp found).1⟩)

theorem reaches_byPath? {path : List String} (found : except i (b.byPath? path) = some q) :
    b.Reaches q :=
  Or.inr (Or.inr (Or.inl ⟨path, (except_eq_some_iff.mp found).1⟩))

theorem reaches_legacyPathParent {e : BatchEntry} (found : (b.legacyPathParent i e).1 = some q) :
    b.Reaches q := by
  unfold legacyPathParent at found
  cases above : LevelPath.parent? e.path with
  | none =>
    rw [above] at found
    cases found
  | some path =>
    rw [above] at found
    rcases Option.or_eq_some_iff.mp found with found | ⟨-, found⟩
    · exact reaches_byPath? found
    · obtain ⟨name, -, found⟩ := Option.bind_eq_some_iff.mp found
      exact Or.inr (Or.inr (Or.inr ⟨path.length, name, (except_eq_some_iff.mp found).1⟩))

/-- The parent that is proposed for a node is found by a key. -/
theorem reaches_proposedParent {d : Dialect} {groups : List RowGroup} {e : BatchEntry}
    (found : (b.proposedParent d groups i e).1 = some q) : b.Reaches q := by
  have standardPath : ((LevelPath.parent? e.path).bind fun path =>
      except i (b.byPath? path)) = some q → b.Reaches q := by
    intro found
    obtain ⟨path, -, found⟩ := Option.bind_eq_some_iff.mp found
    exact reaches_byPath? found
  unfold proposedParent at found
  dsimp only at found
  cases d with
  | standard =>
    cases leader : (e.group.bind (groups[·]?)).map (·.leader) with
    | none =>
      rw [leader] at found
      exact standardPath found
    | some row =>
      dsimp only at found
      rw [leader, standardParent_fst, Option.or_eq_some_iff, Option.or_eq_some_iff] at found
      rcases found with (found | ⟨-, found⟩) | ⟨-, found⟩
      · exact reaches_byParentXref? found
      · exact reaches_byParentId? found
      · split_ifs at found
        exact standardPath found
  | legacy =>
    cases leader : (e.group.bind (groups[·]?)).map (·.leader) with
    | none =>
      rw [leader] at found
      exact reaches_legacyPathParent found
    | some row =>
      dsimp only at found
      rw [leader, legacyParent_fst, Option.or_eq_some_iff] at found
      rcases found with found | ⟨-, found⟩
      · exact reaches_byParentXref? found
      · exact reaches_legacyPathParent found

end Reaches

/-! ## Linking as a fold over links -/

/-- The parent that is proposed for the node at a position. -/
def proposal (b : Batch) (d : Dialect) (groups : List RowGroup) (i : Nat) : Option Nat :=
  (b.entries[i]?).bind fun e => (b.proposedParent d groups i e).1

/-- The links after the node at a position has been linked. -/
def linkStep (b : Batch) (d : Dialect) (groups : List RowGroup) (f : Nat → Option Nat) (i : Nat) :
    Nat → Option Nat :=
  match b.proposal d groups i with
  | none => f
  | some p => if (b.withParents f).wouldCycle i p then f else Function.update f i (some p)

/-- The links of the new nodes. -/
def links (b : Batch) (d : Dialect) (groups : List RowGroup) : Nat → Option Nat :=
  b.newPositions.foldl (b.linkStep d groups) fun _ => none

theorem linkOne_withParents (b : Batch) (d : Dialect) (groups : List RowGroup)
    (f : Nat → Option Nat) (ws : List String) (i : Nat) :
    ∃ ws', linkOne d groups (b.withParents f, ws) i =
      (b.withParents (b.linkStep d groups f i), ws') := by
  unfold linkOne linkStep proposal
  dsimp only
  rw [getElem?_withParents]
  cases he : b.entries[i]? with
  | none => exact ⟨ws, rfl⟩
  | some e =>
    simp only [Option.map_some, Option.bind_some, proposedParent_withParents]
    rcases hp : b.proposedParent d groups i e with ⟨_ | p, raised⟩
    · exact ⟨_, rfl⟩
    · dsimp only
      split_ifs with cycle
      · exact ⟨_, rfl⟩
      · exact ⟨_, by rw [modify_withParents]⟩

theorem foldl_linkOne (b : Batch) (d : Dialect) (groups : List RowGroup) (ps : List Nat) :
    ∀ (f : Nat → Option Nat) (ws : List String),
      (ps.foldl (linkOne d groups) (b.withParents f, ws)).1 =
        b.withParents (ps.foldl (b.linkStep d groups) f) := by
  induction ps with
  | nil => intro f ws; rfl
  | cons i ps ih =>
    intro f ws
    obtain ⟨ws', step⟩ := linkOne_withParents b d groups f ws i
    rw [List.foldl_cons, List.foldl_cons, step, ih]

/-- Linking gives the new nodes their links and changes nothing else. -/
theorem link_eq {b : Batch} (unlinked : ∀ e ∈ b.entries, e.parent = none) (d : Dialect)
    (groups : List RowGroup) : (b.link d groups).1 = b.withParents (b.links d groups) := by
  have run := foldl_linkOne b d groups b.newPositions (fun _ => none) []
  rw [withParents_none unlinked] at run
  exact run

/-! ## What the links are -/

section Links

variable {b : Batch} {d : Dialect} {groups : List RowGroup}

/-- Links that the proposals of a batch can lead to. -/
structure LinksOk (b : Batch) (d : Dialect) (groups : List RowGroup) (f : Nat → Option Nat) :
    Prop where
  proposed : ∀ i p, f i = some p → b.proposal d groups i = some p
  grounded : Grounded f

theorem lt_size_of_proposal {i p : Nat} (h : b.proposal d groups i = some p) : i < b.size := by
  obtain ⟨e, he, -⟩ := Option.bind_eq_some_iff.mp h
  exact (List.getElem?_eq_some_iff.mp he).1

theorem LinksOk.parent?_eq {f : Nat → Option Nat} (h : b.LinksOk d groups f) :
    (b.withParents f).parent? = f :=
  parent?_withParents fun i p hf => lt_size_of_proposal (h.proposed i p hf)

/-- One step keeps the links proposed and the climbs finite. -/
theorem linksOk_linkStep (valid : ∀ i p, b.proposal d groups i = some p → p < b.size)
    {f : Nat → Option Nat} (h : b.LinksOk d groups f) (i : Nat) :
    b.LinksOk d groups (b.linkStep d groups f i) := by
  unfold linkStep
  cases hp : b.proposal d groups i with
  | none => exact h
  | some p =>
    dsimp only
    split_ifs with cycle
    · exact h
    · have linked : ∀ c q, (b.withParents f).parent? c = some q → q < (b.withParents f).size := by
        intro c q hq
        rw [h.parent?_eq] at hq
        rw [size_withParents]
        exact valid c q (h.proposed c q hq)
      obtain ⟨n, avoids⟩ := (wouldCycle_eq_false_iff (by rw [size_withParents]; exact valid i p hp)
        linked).mp (by simpa using cycle)
      rw [h.parent?_eq] at avoids
      refine ⟨?_, grounded_update h.grounded avoids⟩
      intro c q hq
      by_cases hc : c = i
      · subst hc
        rw [Function.update_self] at hq
        exact hq ▸ hp
      · rw [Function.update_of_ne hc] at hq
        exact h.proposed c q hq

theorem linksOk_foldl (valid : ∀ i p, b.proposal d groups i = some p → p < b.size)
    (ps : List Nat) : ∀ f, b.LinksOk d groups f →
      b.LinksOk d groups (ps.foldl (b.linkStep d groups) f) := by
  induction ps with
  | nil => intro f h; exact h
  | cons i ps ih =>
    intro f h
    exact ih _ (linksOk_linkStep valid h i)

/-- Every link is a proposed one, and every climb ends. -/
theorem linksOk_links (valid : ∀ i p, b.proposal d groups i = some p → p < b.size) :
    b.LinksOk d groups (b.links d groups) :=
  linksOk_foldl valid _ _ ⟨fun _ _ h => (by cases h), grounded_none⟩

theorem linkStep_of_ne {f : Nat → Option Nat} {i j : Nat} (h : j ≠ i) :
    b.linkStep d groups f i j = f j := by
  unfold linkStep
  cases b.proposal d groups i with
  | none => rfl
  | some p =>
    dsimp only
    split_ifs
    · rfl
    · rw [Function.update_of_ne h]

theorem foldl_linkStep_of_notMem {i : Nat} (ps : List Nat) : ∀ (f : Nat → Option Nat), i ∉ ps →
    ps.foldl (b.linkStep d groups) f i = f i := by
  induction ps with
  | nil => intro f _; rfl
  | cons j ps ih =>
    intro f h
    rw [List.mem_cons, not_or] at h
    rw [List.foldl_cons, ih _ h.2, linkStep_of_ne h.1]

/-- If the proposals lower a rank, no link is refused. -/
theorem links_eq_proposal {rank : Nat → Nat}
    (valid : ∀ i p, b.proposal d groups i = some p → p < b.size)
    (lowers : ∀ i p, b.proposal d groups i = some p → rank p < rank i)
    (positions : b.newPositions.Nodup) {i : Nat} (mem : i ∈ b.newPositions) :
    b.links d groups i = b.proposal d groups i := by
  have run : ∀ (ps : List Nat) (f : Nat → Option Nat), b.LinksOk d groups f → ps.Nodup →
      (∀ j ∈ ps, f j = none) → i ∈ ps →
      ps.foldl (b.linkStep d groups) f i = b.proposal d groups i := by
    intro ps
    induction ps with
    | nil => intro f _ _ _ h; cases h
    | cons j ps ih =>
      intro f ok nodup fresh hi
      rw [List.nodup_cons] at nodup
      rw [List.foldl_cons]
      rcases List.mem_cons.mp hi with rfl | hi
      · rw [foldl_linkStep_of_notMem ps _ nodup.1, linkStep]
        cases hp : b.proposal d groups i with
        | none => exact fresh i (by simp)
        | some p =>
          have free : (b.withParents f).wouldCycle i p = false := by
            rw [wouldCycle_eq_false_iff (by rw [size_withParents]; exact valid i p hp)]
            · rw [ok.parent?_eq]
              exact exists_endsAvoiding_of_rank rank
                (fun c q hq => lowers c q (ok.proposed c q hq)) _ p (Nat.le_refl _) (lowers i p hp)
            · intro c q hq
              rw [ok.parent?_eq] at hq
              rw [size_withParents]
              exact valid c q (ok.proposed c q hq)
          dsimp only
          rw [free, if_neg (by simp), Function.update_self]
      · refine ih _ (linksOk_linkStep valid ok j) nodup.2 ?_ hi
        intro k hk
        rw [linkStep_of_ne (by rintro rfl; exact nodup.1 hk)]
        exact fresh k (by simp [hk])
  exact run _ _ ⟨fun _ _ h => (by cases h), grounded_none⟩ positions (fun _ _ => rfl) mem

end Links

end Rollup.Batch

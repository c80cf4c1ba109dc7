import Mathlib.Data.List.Basic
import Mathlib.Tactic.SplitIfs
import Rollup.Import.Assembly
import Rollup.Proofs.Dict

/-!
# Keys of a batch

What the key tables of a batch hold: the keys of the stored nodes by position, and the keys of the
groups in the order of their registration. Every key leads to a position of the batch.

Results:

* `stored_ofStored`: the keys of stored nodes.
* `foldl_groupKeys`: the keys of groups.
* `KeyTable.Within`: all positions of a table are below a bound.
-/

namespace Rollup

namespace KeyTable

/-! ## Positions below a bound -/

/-- All keys lead to positions below `n`. -/
structure Within (t : KeyTable) (n : Nat) : Prop where
  ids : ∀ q ∈ t.ids, q.2 < n
  xrefs : ∀ q ∈ t.xrefs, q.2 < n
  names : ∀ q ∈ t.names, q.2 < n
  paths : ∀ q ∈ t.paths, q.2 < n

section Within

variable {t : KeyTable} {n i : Nat}

theorem within_empty (n : Nat) : Within {} n :=
  ⟨by simp, by simp, by simp, by simp⟩

theorem Within.mono {m : Nat} (h : t.Within n) (le : n ≤ m) : t.Within m :=
  ⟨fun q hq => Nat.lt_of_lt_of_le (h.ids q hq) le,
   fun q hq => Nat.lt_of_lt_of_le (h.xrefs q hq) le,
   fun q hq => Nat.lt_of_lt_of_le (h.names q hq) le,
   fun q hq => Nat.lt_of_lt_of_le (h.paths q hq) le⟩

theorem Within.addId (h : t.Within n) (hi : i < n) (key : String) : (t.addId key i).Within n where
  ids q hq := by
    rcases List.mem_append.mp hq with hq | hq
    · exact h.ids q hq
    · rw [List.mem_singleton.mp hq]
      exact hi
  xrefs := h.xrefs
  names := h.names
  paths := h.paths

theorem Within.addXref (h : t.Within n) (hi : i < n) (key : Int) : (t.addXref key i).Within n where
  ids := h.ids
  xrefs q hq := by
    rcases List.mem_append.mp hq with hq | hq
    · exact h.xrefs q hq
    · rw [List.mem_singleton.mp hq]
      exact hi
  names := h.names
  paths := h.paths

theorem Within.addName (h : t.Within n) (hi : i < n) (key : String) :
    (t.addName key i).Within n where
  ids := h.ids
  xrefs := h.xrefs
  names q hq := by
    rcases List.mem_append.mp hq with hq | hq
    · exact h.names q hq
    · rw [List.mem_singleton.mp hq]
      exact hi
  paths := h.paths

theorem Within.addPath (h : t.Within n) (hi : i < n) (path : List String) :
    (t.addPath path i).Within n := by
  unfold KeyTable.addPath
  split_ifs with empty
  · exact h
  · refine ⟨h.ids, h.xrefs, h.names, fun q hq => ?_⟩
    rcases List.mem_append.mp hq with hq | hq
    · exact h.paths q hq
    · rw [List.mem_singleton.mp hq]
      exact hi

theorem Within.id? (h : t.Within n) {key : String} (found : t.id? key = some i) : i < n :=
  h.ids _ (mem_of_lookup found)

theorem Within.xref? (h : t.Within n) {key : Int} (found : t.xref? key = some i) : i < n :=
  h.xrefs _ (mem_of_lookup found)

theorem Within.name? (h : t.Within n) {key : String} (found : t.name? key = some i) : i < n :=
  h.names _ (mem_of_lookup found)

theorem Within.path? (h : t.Within n) {path : List String} (found : t.path? path = some i) :
    i < n :=
  h.paths _ (mem_of_lookup found)

theorem Within.depthName? (h : t.Within n) {depth : Nat} {name : String}
    (found : t.depthName? depth name = some i) : i < n := by
  obtain ⟨q, hq, rfl⟩ := Option.map_eq_some_iff.mp found
  exact h.paths q (List.mem_of_find?_eq_some hq)

end Within

end KeyTable

/-! ## The keys of stored nodes -/

namespace Batch

/-- The entry of a stored node. -/
def storedEntry (n : Node) : BatchEntry :=
  ⟨n, .stored, n.levelPath, none, none⟩

/-- The keys of nodes at the positions from `first` on. -/
def storedKeys (nodes : List Node) (first : Nat) : KeyTable where
  ids := (nodes.zipIdx first).map fun q => (q.1.hierarchyId, q.2)
  xrefs := (nodes.zipIdx first).filterMap fun q => q.1.xrefKey.map fun key => (key, q.2)
  names := (nodes.zipIdx first).map fun q => (q.1.name, q.2)
  paths := ((nodes.zipIdx first).filter fun q => q.1.levelPath ≠ []).map fun q =>
    (q.1.levelPath, q.2)

theorem foldl_pushStored (nodes : List Node) : ∀ b : Batch,
    nodes.foldl pushStored b =
      { b with
        entries := b.entries ++ nodes.map storedEntry
        stored := {
          ids := b.stored.ids ++ (storedKeys nodes b.size).ids
          xrefs := b.stored.xrefs ++ (storedKeys nodes b.size).xrefs
          names := b.stored.names ++ (storedKeys nodes b.size).names
          paths := b.stored.paths ++ (storedKeys nodes b.size).paths } } := by
  induction nodes with
  | nil => intro b; simp [storedKeys]
  | cons n nodes ih =>
    intro b
    have size_eq : (b.pushStored n).size = b.size + 1 := by simp [pushStored, push, size]
    rw [List.foldl_cons, ih, size_eq]
    cases hx : n.xrefKey <;> by_cases hp : n.levelPath = [] <;>
      simp [pushStored, push, storedKeys, storedEntry, KeyTable.addId, KeyTable.addName,
        KeyTable.addXref, KeyTable.addPath, hx, hp]

theorem entries_ofStored (nodes : List Node) :
    (ofStored nodes).entries = nodes.map storedEntry := by
  rw [ofStored, foldl_pushStored]
  simp

theorem fresh_ofStored (nodes : List Node) : (ofStored nodes).fresh = {} := by
  rw [ofStored, foldl_pushStored]

theorem stored_ofStored (nodes : List Node) : (ofStored nodes).stored = storedKeys nodes 0 := by
  rw [ofStored, foldl_pushStored]
  simp [size, storedKeys]

theorem size_ofStored (nodes : List Node) : (ofStored nodes).size = nodes.length := by
  rw [size, entries_ofStored, List.length_map]

theorem within_storedKeys (nodes : List Node) : (storedKeys nodes 0).Within nodes.length := by
  have below : ∀ q ∈ nodes.zipIdx, q.2 < nodes.length := by
    intro q hq
    exact (List.mem_zipIdx' hq).1
  refine ⟨?_, ?_, ?_, ?_⟩
  · intro q hq
    obtain ⟨r, hr, rfl⟩ := List.mem_map.mp hq
    exact below r hr
  · intro q hq
    obtain ⟨r, hr, hq⟩ := List.mem_filterMap.mp hq
    obtain ⟨key, -, rfl⟩ := Option.map_eq_some_iff.mp hq
    exact below r hr
  · intro q hq
    obtain ⟨r, hr, rfl⟩ := List.mem_map.mp hq
    exact below r hr
  · intro q hq
    obtain ⟨r, hr, rfl⟩ := List.mem_map.mp hq
    exact below r (List.mem_of_mem_filter hr)

theorem map_ids_storedKeys (nodes : List Node) :
    (storedKeys nodes 0).ids.map (·.1) = nodes.map (·.hierarchyId) := by
  rw [storedKeys, List.map_map, ← map_zipIdx_fst (·.hierarchyId) nodes]
  rfl

theorem storedKeys_id?_isSome {nodes : List Node} {h : String} :
    ((storedKeys nodes 0).id? h).isSome = true ↔ h ∈ nodes.map (·.hierarchyId) := by
  rw [KeyTable.id?, lookup_isSome_iff_mem, map_ids_storedKeys]

theorem mem_paths_storedKeys {nodes : List Node} {path : List String} :
    path ∈ (storedKeys nodes 0).paths.map (·.1) ↔
      ∃ n ∈ nodes, n.levelPath ≠ [] ∧ n.levelPath = path := by
  rw [storedKeys, List.map_map, List.mem_map]
  constructor
  · rintro ⟨q, hq, e⟩
    rw [List.mem_filter, decide_eq_true_eq] at hq
    exact ⟨q.1, List.fst_mem_of_mem_zipIdx hq.1, hq.2, e⟩
  · rintro ⟨n, hn, ne, e⟩
    obtain ⟨i, hi⟩ := List.getElem?_of_mem hn
    exact ⟨(n, i), List.mem_filter.mpr
      ⟨List.mem_zipIdx_iff_getElem?.mpr hi, by simpa using ne⟩, e⟩

theorem storedKeys_path?_isSome {nodes : List Node} {path : List String} :
    ((storedKeys nodes 0).path? path).isSome = true ↔
      ∃ n ∈ nodes, n.levelPath ≠ [] ∧ n.levelPath = path := by
  rw [KeyTable.path?, lookup_isSome_iff_mem, mem_paths_storedKeys]

theorem storedKeys_depthName?_isSome {nodes : List Node} {depth : Nat} {name : String} :
    ((storedKeys nodes 0).depthName? depth name).isSome = true ↔
      ∃ n ∈ nodes, n.levelPath ≠ [] ∧ n.levelPath.length = depth ∧
        n.levelPath.getLast? = some name := by
  rw [KeyTable.depthName?, Option.isSome_map, List.find?_isSome]
  constructor
  · rintro ⟨q, hq, e⟩
    obtain ⟨n, hn, ne, same⟩ := mem_paths_storedKeys.mp (List.mem_map_of_mem hq)
    rw [Bool.and_eq_true, beq_iff_eq, beq_iff_eq, ← same] at e
    exact ⟨n, hn, ne, e⟩
  · rintro ⟨n, hn, ne, e⟩
    obtain ⟨q, hq, same⟩ := List.mem_map.mp (mem_paths_storedKeys.mpr ⟨n, hn, ne, rfl⟩)
    refine ⟨q, hq, ?_⟩
    rw [Bool.and_eq_true, beq_iff_eq, beq_iff_eq, same]
    exact e

theorem storedKeys_name?_isSome {nodes : List Node} {name : String} :
    ((storedKeys nodes 0).name? name).isSome = true ↔ ∃ n ∈ nodes, n.name = name := by
  have names : (storedKeys nodes 0).names.map (·.1) = nodes.map (·.name) := by
    rw [storedKeys, List.map_map, ← map_zipIdx_fst (·.name) nodes]
    rfl
  rw [KeyTable.name?, lookup_isSome_iff_mem, names, List.mem_map]

/-- Some stored node can stand for a placeholder exactly if one has its id, its path, its depth and
    name, or its name. -/
theorem storedMatch?_isSome {b : Batch} {nodes : List Node} (keys : b.stored = storedKeys nodes 0)
    {h : String} {path : List String} {name : String} :
    (b.storedMatch? h path name).isSome = true ↔ ∃ n ∈ nodes, n.hierarchyId = h ∨
      (n.levelPath ≠ [] ∧ n.levelPath = path) ∨
      (n.levelPath ≠ [] ∧ n.levelPath.length = path.length ∧ n.levelPath.getLast? = some name) ∨
      n.name = name := by
  rw [storedMatch?, keys, Option.isSome_or, Option.isSome_or, Option.isSome_or, Bool.or_eq_true,
    Bool.or_eq_true, Bool.or_eq_true, storedKeys_id?_isSome, storedKeys_path?_isSome,
    storedKeys_depthName?_isSome, storedKeys_name?_isSome, List.mem_map]
  constructor
  · rintro (((⟨n, hn, e⟩ | ⟨n, hn, e⟩) | ⟨n, hn, e⟩) | ⟨n, hn, e⟩)
    · exact ⟨n, hn, Or.inl e⟩
    · exact ⟨n, hn, Or.inr (Or.inl e)⟩
    · exact ⟨n, hn, Or.inr (Or.inr (Or.inl e))⟩
    · exact ⟨n, hn, Or.inr (Or.inr (Or.inr e))⟩
  · rintro ⟨n, hn, e | e | e | e⟩
    · exact Or.inl (Or.inl (Or.inl ⟨n, hn, e⟩))
    · exact Or.inl (Or.inl (Or.inr ⟨n, hn, e⟩))
    · exact Or.inl (Or.inr ⟨n, hn, e⟩)
    · exact Or.inr ⟨n, hn, e⟩

end Batch

/-! ## The keys of groups -/

namespace Assembly

/-- The keys of groups with their positions, in order, after those of `t`. -/
theorem foldl_groupKeys (places : List (RowGroup × Nat)) : ∀ t : KeyTable,
    places.foldl (fun keys q => groupKeys q.1 q.2 keys) t =
      { ids := t.ids ++ places.map fun q => (q.1.hierarchyId, q.2)
        xrefs := t.xrefs ++ places.flatMap fun q => q.1.xrefs.map fun x => (x, q.2)
        names := t.names ++ places.map fun q => (q.1.name, q.2)
        paths := t.paths ++ (places.filter fun q => q.1.path ≠ []).map fun q => (q.1.path, q.2) } := by
  have xrefs : ∀ (xs : List Int) (i : Nat) (t : KeyTable),
      xs.foldl (fun keys x => keys.addXref x i) t =
        { t with xrefs := t.xrefs ++ xs.map fun x => (x, i) } := by
    intro xs i
    induction xs with
    | nil => intro t; simp
    | cons x xs ih => intro t; rw [List.foldl_cons, ih]; simp [KeyTable.addXref]
  induction places with
  | nil => intro t; simp
  | cons q places ih =>
    intro t
    rw [List.foldl_cons, ih, groupKeys, xrefs]
    by_cases hp : q.1.path = [] <;>
      simp [KeyTable.addId, KeyTable.addName, KeyTable.addPath, hp]

theorem within_groupKeys {t : KeyTable} {n i : Nat} (h : t.Within n) (hi : i < n) (g : RowGroup) :
    (groupKeys g i t).Within n := by
  have xrefs : ∀ (xs : List Int) (t : KeyTable), t.Within n →
      (xs.foldl (fun keys x => keys.addXref x i) t).Within n := by
    intro xs
    induction xs with
    | nil => intro t h; exact h
    | cons x xs ih => intro t h; exact ih _ (h.addXref hi x)
  exact (xrefs _ _ ((h.addId hi _).addName hi _)).addPath hi _

end Assembly

end Rollup

import Mathlib.Data.List.Basic
import Mathlib.Data.List.Nodup
import Mathlib.Logic.Relation
import Rollup.Export.Hierarchy
import Rollup.Proofs.Column
import Rollup.Proofs.Dict
import Rollup.Proofs.Export.LeastKeys
import Rollup.Proofs.Export.Order
import Rollup.Proofs.Forest
import Rollup.Proofs.Import.Keys
import Rollup.Proofs.Reference

/-!
# The sheet of an export

Which nodes an export writes, under which keys and in which columns, if the nodes form a forest
and their texts are in the form in which they are kept.

Results:

* `Exportable`: what is asked of the nodes.
* `Legible`: what is asked of them if only their rows have to be read back.
* `mem_written`, `nodup_written`: every node is written once.
* `exists_key`, `key_unique`: every written node has a key of its own.
* `KeysFit`: what is asked of the keys; `keysFit_of_size`, `keysFit_of_nextKey`: when they are so.
* `nodup_header`, `canonical_header`: the columns are distinct and canonical.
-/

namespace Rollup

/-! ## Nodes that can be exported -/

/-- A text that is kept as it is: trimmed, not blank, and not the word for a missing value. -/
def Literal.Plain (s : String) : Prop :=
  text? s = some s

instance (s : String) : Decidable (Literal.Plain s) :=
  inferInstanceAs (Decidable (_ = _))

/-- The name of a custom flag in the form in which it is kept and found in a header. -/
structure CustomFlags.IsName (k : String) : Prop where
  ne : k ≠ ""
  kept : key k = k
  canonical : Column.IsCanonical k
  free : k ∉ Column.known

/-- A node whose texts are in the form in which they are kept, and whose numbers have 64 bits. -/
structure Node.Exportable (n : Node) : Prop where
  described : n.isPlaceholder = false
  hierarchyId : Literal.Plain n.hierarchyId
  name : Literal.Plain n.name
  description : ∀ d, n.description = some d → Literal.Plain d
  sortOrder : Literal.inRange n.sortOrder = true
  levelSorts : ∀ k, some k ∈ n.levelSorts → Literal.inRange k = true
  xrefKey : ∀ k, n.xrefKey = some k → Literal.inRange k = true
  flagNames : ∀ k ∈ Dict.keys n.customFlags, CustomFlags.IsName k
  flagOrder : Dict.Ordered n.customFlags
  filterNames : ∀ k ∈ Dict.keys n.filterGroups, k ∈ Column.filterColumns
  filterValues : ∀ q ∈ n.filterGroups, Literal.Plain q.2
  filterOrder : Dict.Ordered n.filterGroups
  precedences : ∀ f, n.formula = some f → ∀ r ∈ f.rules, Literal.inRange r.precedence = true
  constants : ∀ f, n.formula = some f → ∀ r ∈ f.rules, ∀ x, r.constant = some x → x.Canonical

/-- A node whose rows can be read back: its id is in the form in which it is kept, its flags and its
    filter groups have columns of their own, and its numbers have 64 bits. Its other texts can be
    anything. -/
structure Node.Legible (n : Node) : Prop where
  hierarchyId : Literal.Plain n.hierarchyId
  sortOrder : Literal.inRange n.sortOrder = true
  levelSorts : ∀ k, some k ∈ n.levelSorts → Literal.inRange k = true
  xrefKey : ∀ k, n.xrefKey = some k → Literal.inRange k = true
  flagNames : ∀ k ∈ Dict.keys n.customFlags, CustomFlags.IsName k
  filterNames : ∀ k ∈ Dict.keys n.filterGroups, k ∈ Column.filterColumns
  filterOrder : Dict.Ordered n.filterGroups
  precedences : ∀ f, n.formula = some f → ∀ r ∈ f.rules, Literal.inRange r.precedence = true
  constants : ∀ f, n.formula = some f → ∀ r ∈ f.rules, ∀ x, r.constant = some x → x.Canonical

theorem Node.Exportable.legible {n : Node} (h : n.Exportable) : n.Legible :=
  { h with }

/-- Where every element is mapped to something, none is dropped. -/
theorem getElem?_filterMap_of_isSome {α β : Type} {f : α → Option β} {xs : List α}
    (all : ∀ a ∈ xs, (f a).isSome = true) (k : Nat) :
    (xs.filterMap f)[k]? = (xs[k]?).bind f := by
  induction xs generalizing k with
  | nil => rfl
  | cons a xs ih =>
    obtain ⟨b, hb⟩ := Option.isSome_iff_exists.mp (all a (by simp))
    rw [List.filterMap_cons_some hb]
    cases k with
    | zero => simp [hb]
    | succ k => simpa using ih (fun a' ha' => all a' (by simp [ha'])) k

namespace Export

/-- Some node with the storage id `child` has the storage id `parent` as its parent. -/
def IsParent (nodes : List Node) (parent child : String) : Prop :=
  ∃ n ∈ nodes, n.id = child ∧ n.parentId = some parent

/-- A forest of nodes that can be exported: ids are distinct, parents are in the list, and no node
    is its own ancestor. -/
structure Exportable (nodes : List Node) : Prop where
  ids : (nodes.map (·.id)).Nodup
  hierarchyIds : (nodes.map (·.hierarchyId)).Nodup
  closed : ∀ n ∈ nodes, ∀ id, n.parentId = some id → id ∈ nodes.map (·.id)
  acyclic : ∀ id, ¬ Relation.TransGen (IsParent nodes) id id
  roots : ∀ n ∈ nodes, n.isRoot = n.parentId.isNone
  node : ∀ n ∈ nodes, n.Exportable

/-- Nodes whose rows can be told apart and read back. They need not form a forest, and some of them
    can be placeholders. -/
structure Legible (nodes : List Node) : Prop where
  hierarchyIds : (nodes.map (·.hierarchyId)).Nodup
  node : ∀ n ∈ nodes, n.isPlaceholder = false → n.Legible

theorem Exportable.legible {nodes : List Node} (h : Exportable nodes) : Legible nodes :=
  ⟨h.hierarchyIds, fun n hn _ => (h.node n hn).legible⟩

/-- Nodes whose parents are below them in some order form no cycle. -/
theorem acyclic_of_rank {nodes : List Node} (rank : String → Nat)
    (lowers : ∀ n ∈ nodes, ∀ id, n.parentId = some id → rank id < rank n.id) (id : String) :
    ¬ Relation.TransGen (IsParent nodes) id id := by
  intro cycle
  have step : ∀ a b, IsParent nodes a b → rank a < rank b := by
    rintro a b ⟨n, hn, rfl, link⟩
    exact lowers n hn a link
  have less := Relation.TransGen.lift rank step id id cycle
  rw [Relation.transGen_eq_self] at less
  exact Nat.lt_irrefl _ less

namespace Exportable

variable {nodes : List Node} (h : Exportable nodes)

include h

theorem acyclic_positions (i : Nat) :
    ¬ Relation.TransGen (Ancestry.Link (Forest.ofNodes nodes).parent?) i i :=
  Forest.acyclic_ofNodes (fun n hn _ link => ⟨n, hn, rfl, link⟩) h.acyclic i

/-- A node with a parent is linked to the position of the parent. -/
theorem exists_parent {i : Nat} {n : Node} (here : nodes[i]? = some n) {id : String}
    (link : n.parentId = some id) :
    ∃ p m, (Forest.ofNodes nodes).parent? i = some p ∧ nodes[p]? = some m ∧ m.id = id := by
  obtain ⟨m, hm, rfl⟩ := List.mem_map.mp (h.closed n (List.mem_of_getElem? here) id link)
  obtain ⟨p, there⟩ := List.getElem?_of_mem hm
  exact ⟨p, m, Forest.parent?_of_link h.ids here there link, there, rfl⟩

/-- A node at the position of a root has no parent. -/
theorem parentId_of_root {i : Nat} {n : Node} (here : nodes[i]? = some n)
    (root : (Forest.ofNodes nodes).parent? i = none) : n.parentId = none := by
  cases link : n.parentId with
  | none => rfl
  | some id =>
    obtain ⟨p, -, parent, -⟩ := h.exists_parent here link
    rw [root] at parent
    cases parent

end Exportable

/-! ## The written nodes -/

/-- The nodes that a sheet writes, with their positions. -/
def Sheet.written (s : Sheet) : List (Nat × Node) :=
  exportedNodes s.forest s.exported

theorem forest_ofNodes (nodes : List Node) (options : ExportOptions) :
    (Sheet.ofNodes nodes options).forest = Forest.ofNodes nodes := rfl

/-- Only nodes of the list are written. -/
theorem getElem?_of_written {nodes : List Node} {options : ExportOptions} {q : Nat × Node}
    (mem : q ∈ (Sheet.ofNodes nodes options).written) : nodes[q.1]? = some q.2 := by
  obtain ⟨j, -, hj⟩ := List.mem_filterMap.mp mem
  obtain ⟨m, hm, rfl⟩ := Option.map_eq_some_iff.mp hj
  exact hm

/-- The nodes that are no placeholders are written. -/
theorem mem_written_iff {nodes : List Node} {options : ExportOptions} {i : Nat} {n : Node} :
    (i, n) ∈ (Sheet.ofNodes nodes options).written ↔
      nodes[i]? = some n ∧ n.isPlaceholder = false := by
  have perm := Forest.perm_exportOrder (Forest.length_parents_ofNodes nodes)
  have exported : i ∈ (Sheet.ofNodes nodes options).exported ↔
      i ∈ (Forest.ofNodes nodes).exportOrder ∧
        (!((nodes[i]?).map (·.isPlaceholder)).getD true) = true := List.mem_filter
  constructor
  · intro mem
    have here := getElem?_of_written mem
    obtain ⟨j, hj, eq⟩ := List.mem_filterMap.mp mem
    obtain ⟨m, -, same⟩ := Option.map_eq_some_iff.mp eq
    rw [(Prod.mk.inj same).1, exported, here] at hj
    exact ⟨here, by simpa using hj.2⟩
  · rintro ⟨here, described⟩
    have bound : i < nodes.length := (List.getElem?_eq_some_iff.mp here).1
    refine List.mem_filterMap.mpr ⟨i, exported.mpr ⟨?_, ?_⟩, Option.map_eq_some_iff.mpr ⟨n, here, rfl⟩⟩
    · exact perm.mem_iff.mpr (List.mem_range.mpr bound)
    · simp [here, described]

/-- No node is written twice. -/
theorem nodup_written (nodes : List Node) (options : ExportOptions) :
    ((Sheet.ofNodes nodes options).written.map (·.1)).Nodup := by
  have perm := Forest.perm_exportOrder (Forest.length_parents_ofNodes nodes)
  unfold Sheet.written Sheet.exportedNodes
  rw [List.map_filterMap]
  refine ((perm.nodup_iff.mpr List.nodup_range).filter _).filterMap fun i j k hi hj => ?_
  obtain ⟨q, hq, rfl⟩ := Option.map_eq_some_iff.mp hi
  obtain ⟨r, hr, same⟩ := Option.map_eq_some_iff.mp hj
  obtain ⟨n, -, rfl⟩ := Option.map_eq_some_iff.mp hq
  obtain ⟨m, -, rfl⟩ := Option.map_eq_some_iff.mp hr
  exact same.symm

section Described

variable {nodes : List Node} (described : ∀ n ∈ nodes, n.isPlaceholder = false)
  (options : ExportOptions)

include described

/-- Without placeholders, all nodes are exported. -/
theorem exported_of_described :
    (Sheet.ofNodes nodes options).exported = (Forest.ofNodes nodes).exportOrder := by
  refine List.filter_eq_self.mpr fun i hi => ?_
  have perm := Forest.perm_exportOrder (Forest.length_parents_ofNodes nodes)
  have bound : i < nodes.length := List.mem_range.mp (perm.mem_iff.mp hi)
  have here : (Forest.ofNodes nodes).nodes[i]? = some nodes[i] := List.getElem?_eq_getElem bound
  rw [here, Option.map_some, Option.getD_some, described _ (List.getElem_mem bound), Bool.not_false]

/-- The nodes are written in the order of the export. -/
theorem getElem?_written (k : Nat) : (Sheet.ofNodes nodes options).written[k]? =
    ((Forest.ofNodes nodes).exportOrder[k]?).bind fun i => (nodes[i]?).map fun n => (i, n) := by
  have perm := Forest.perm_exportOrder (Forest.length_parents_ofNodes nodes)
  unfold Sheet.written Sheet.exportedNodes
  rw [exported_of_described described]
  refine getElem?_filterMap_of_isSome (fun i hi => ?_) k
  have bound : i < nodes.length := List.mem_range.mp (perm.mem_iff.mp hi)
  have here : (Sheet.ofNodes nodes options).forest.nodes[i]? = some nodes[i] :=
    List.getElem?_eq_getElem bound
  rw [here]
  rfl

end Described

/-- The rows of a written node can be read back. -/
theorem Legible.of_written {nodes : List Node} (h : Legible nodes) {options : ExportOptions}
    {q : Nat × Node} (mem : q ∈ (Sheet.ofNodes nodes options).written) : q.2.Legible :=
  have ⟨here, described⟩ := mem_written_iff.mp mem
  h.node q.2 (List.mem_of_getElem? here) described

section Written

variable {nodes : List Node} (h : Exportable nodes) (options : ExportOptions)

include h

/-- Every node is written. -/
theorem mem_written {i : Nat} {n : Node} :
    (i, n) ∈ (Sheet.ofNodes nodes options).written ↔ nodes[i]? = some n := by
  rw [mem_written_iff, and_iff_left_iff_imp]
  exact fun here => (h.node n (List.mem_of_getElem? here)).described

end Written

/-! ## Keys -/

@[simp] theorem length_extraFormulaCells (n : Node) (key : Nat → Int) :
    (Sheet.extraFormulaCells n key).length = extraRows n := by
  unfold extraRows Sheet.extraFormulaCells
  split <;> simp

/-- The number of all further rows. -/
def Sheet.furtherRows (s : Sheet) : Nat :=
  (s.written.map fun q => extraRows q.2).sum

/-- The keys of all further rows, by the number of those before. -/
def Sheet.furtherKey (s : Sheet) (options : ExportOptions) : Nat → Int :=
  ExportKeys.further s.mainKeys (ExportKeys.firstExtra options.syntheticXrefStart s.keys)

/-- The counter of keys after the last row of an export, where numbers do not end. -/
def nextKey (nodes : List Node) (options : ExportOptions) : Int :=
  let s := Sheet.ofNodes nodes options
  ExportKeys.beyond options.syntheticXrefStart s.keys + s.furtherRows

/-- The keys of an export can be read back and lead to the main rows: they have 64 bits, and no
    further row has the key of a main row. -/
structure KeysFit (nodes : List Node) (options : ExportOptions) : Prop where
  main : ∀ q ∈ (Sheet.ofNodes nodes options).keys, Literal.inRange q.2 = true
  range : ∀ k < (Sheet.ofNodes nodes options).furtherRows,
    Literal.inRange ((Sheet.ofNodes nodes options).furtherKey options k) = true
  apart : ∀ k < (Sheet.ofNodes nodes options).furtherRows,
    (Sheet.ofNodes nodes options).furtherKey options k ∉ (Sheet.ofNodes nodes options).mainKeys

/-- Numbers between two of 64 bits have 64 bits. -/
theorem inRange_between {a b k : Int} (low : Literal.inRange a = true)
    (high : Literal.inRange b = true) (ge : a ≤ k) (le : k ≤ b) : Literal.inRange k = true := by
  unfold Literal.inRange at *
  rw [Bool.and_eq_true, decide_eq_true_eq, decide_eq_true_eq] at *
  omega

/-- The nodes that get keys, with their stored ones. -/
def Sheet.storedKeys (s : Sheet) : List (Nat × Option Int) :=
  s.written.map fun q => (q.1, q.2.xrefKey)

section Keys

variable {nodes : List Node} (options : ExportOptions)

theorem keys_ofNodes : (Sheet.ofNodes nodes options).keys =
    ExportKeys.main (Sheet.ofNodes nodes options).storedKeys :=
  rfl

/-- No two nodes share a key. -/
theorem key_unique {i j : Nat} {key : Int}
    (hi : (Sheet.ofNodes nodes options).keys.lookup i = some key)
    (hj : (Sheet.ofNodes nodes options).keys.lookup j = some key) : i = j := by
  rw [keys_ofNodes] at hi hj
  have nodup := ExportKeys.nodup_main (Sheet.ofNodes nodes options).storedKeys
  have same := List.inj_on_of_nodup_map nodup (mem_of_lookup hi) (mem_of_lookup hj) rfl
  exact congrArg Prod.fst same

/-- Every written node has a key. -/
theorem exists_key {i : Nat} {n : Node} (mem : (i, n) ∈ (Sheet.ofNodes nodes options).written) :
    ∃ key, (Sheet.ofNodes nodes options).keys.lookup i = some key := by
  rw [← Option.isSome_iff_exists, lookup_isSome_iff_mem]
  refine ExportKeys.mem_map_fst_main.mpr ?_
  rw [List.map_map]
  exact List.mem_map.mpr ⟨(i, n), mem, rfl⟩

theorem mem_mainKeys {i : Nat} {key : Int}
    (found : (Sheet.ofNodes nodes options).keys.lookup i = some key) :
    key ∈ (Sheet.ofNodes nodes options).mainKeys :=
  List.mem_map_of_mem (mem_of_lookup found)

theorem nodup_storedKeys (nodes : List Node) (options : ExportOptions) :
    ((Sheet.ofNodes nodes options).storedKeys.map (·.1)).Nodup := by
  rw [Sheet.storedKeys, List.map_map]
  exact nodup_written nodes options

theorem length_storedKeys_le (nodes : List Node) (options : ExportOptions) :
    (Sheet.ofNodes nodes options).storedKeys.length ≤ nodes.length := by
  have positions : (Sheet.ofNodes nodes options).storedKeys.map (·.1) ⊆ List.range nodes.length := by
    intro i hi
    rw [Sheet.storedKeys, List.map_map] at hi
    obtain ⟨q, hq, rfl⟩ := List.mem_map.mp hi
    exact List.mem_range.mpr (List.getElem?_eq_some_iff.mp (getElem?_of_written hq)).1
  have few := ((nodup_storedKeys nodes options).subperm positions).length_le
  rwa [List.length_map, List.length_range] at few

/-- Stored keys have 64 bits. -/
theorem Legible.inRange_storedKeys (h : Legible nodes) :
    ∀ q ∈ (Sheet.ofNodes nodes options).storedKeys, ∀ k, q.2 = some k →
      Literal.inRange k = true := by
  intro q hq k stored
  obtain ⟨p, hp, rfl⟩ := List.mem_map.mp hq
  exact (h.of_written hp).xrefKey k stored

/-- Keys fit wherever their counter starts, and even if it wraps around: there are fewer nodes than
    numbers. -/
theorem keysFit_of_size (h : Legible nodes)
    (start : Literal.inRange options.syntheticXrefStart = true)
    (size : nodes.length < 2 ^ 63) : KeysFit nodes options := by
  have few := Nat.lt_of_le_of_lt (length_storedKeys_le nodes options) size
  have main : ∀ q ∈ (Sheet.ofNodes nodes options).keys, Literal.inRange q.2 = true :=
    ExportKeys.inRange_main (nodup_storedKeys nodes options) few (h.inRange_storedKeys options)
  have first := ExportKeys.inRange_firstExtra start main
  refine ⟨main, fun k _ => ExportKeys.inRange_further first k, fun k _ => ?_⟩
  refine ExportKeys.further_notMem first ?_ k
  rw [Sheet.mainKeys, List.length_map]
  exact Nat.lt_of_le_of_lt (ExportKeys.length_main_le (nodup_storedKeys nodes options)) few

theorem KeysFit.inRange_key {options : ExportOptions} (fits : KeysFit nodes options) {i : Nat}
    {key : Int} (found : (Sheet.ofNodes nodes options).keys.lookup i = some key) :
    Literal.inRange key = true :=
  fits.main _ (mem_of_lookup found)

/-- As long as the counter has 64 bits, further rows count their keys up from beyond the main keys. -/
theorem furtherKey_of_fits (fits : Literal.inRange (nextKey nodes options) = true) {k : Nat}
    (bound : k ≤ (Sheet.ofNodes nodes options).furtherRows) :
    (Sheet.ofNodes nodes options).furtherKey options k =
      ExportKeys.beyond options.syntheticXrefStart (Sheet.ofNodes nodes options).keys + k := by
  have most := (ExportKeys.inRange_iff.mp fits).2
  obtain ⟨-, below⟩ := ExportKeys.lt_beyond (Sheet.ofNodes nodes options).keys
    options.syntheticXrefStart
  unfold nextKey at most
  dsimp only at most
  rw [Sheet.furtherKey, ExportKeys.firstExtra_eq_beyond, ExportKeys.further_of_lt]
  · intro key hkey
    obtain ⟨q, hq, rfl⟩ := List.mem_map.mp hkey
    exact below q hq
  · rw [ExportKeys.greatest_eq]
    omega
  · intro q hq
    have := below q hq
    rw [ExportKeys.greatest_eq]
    omega

/-- Keys fit as long as the counter has 64 bits. -/
theorem keysFit_of_nextKey (h : Legible nodes)
    (fits : Literal.inRange (nextKey nodes options) = true) : KeysFit nodes options := by
  obtain ⟨-, below⟩ := ExportKeys.lt_beyond (Sheet.ofNodes nodes options).keys
    options.syntheticXrefStart
  have next : nextKey nodes options = ExportKeys.beyond options.syntheticXrefStart
    (Sheet.ofNodes nodes options).keys + (Sheet.ofNodes nodes options).furtherRows := rfl
  have main : ∀ q ∈ (Sheet.ofNodes nodes options).keys, Literal.inRange q.2 = true := by
    intro q hq
    have := below q hq
    rcases ExportKeys.stored_or_pos_of_mem_main hq with stored | positive
    · exact h.inRange_storedKeys options _ stored q.2 rfl
    · exact inRange_between (a := 1) (by decide) fits positive (by omega)
  refine ⟨main, fun k hk => ?_, fun k hk mem => ?_⟩
  · -- a further row has a main row, whose key is below
    obtain ⟨q, hq⟩ : ∃ q, q ∈ (Sheet.ofNodes nodes options).written := by
      refine List.exists_mem_of_ne_nil _ fun empty => ?_
      rw [Sheet.furtherRows, empty] at hk
      exact absurd hk (Nat.not_lt_zero k)
    obtain ⟨key, found⟩ := exists_key options hq
    have := below _ (mem_of_lookup found)
    rw [furtherKey_of_fits options fits hk.le]
    exact inRange_between (main _ (mem_of_lookup found)) fits (by dsimp only at *; omega) (by omega)
  · rw [furtherKey_of_fits options fits hk.le] at mem
    obtain ⟨q, hq, same⟩ := List.mem_map.mp mem
    have := below q hq
    omega

end Keys

/-! ## Columns -/

section Columns

variable {nodes : List Node} (h : Legible nodes) (options : ExportOptions)

theorem levels_le : (Sheet.ofNodes nodes options).levels ≤ Column.maxLevels :=
  Nat.min_le_right _ _

theorem sorted_customFlags (nodes : List Node) (options : ExportOptions) :
    (Sheet.ofNodes nodes options).customFlags.Pairwise (· < ·) :=
  Dict.sorted_sortedDistinct _

theorem fixed_mem_header {c : String} (mem : c ∈ Column.fixed) :
    c ∈ (Sheet.ofNodes nodes options).layout.header :=
  List.mem_append_left _ (Column.mem_standard_of_fixed mem _)

theorem filter_mem_header {c : String} (mem : c ∈ Column.filterColumns) :
    c ∈ (Sheet.ofNodes nodes options).layout.header :=
  List.mem_append_left _ (Column.mem_standard_of_filterColumns mem _)

theorem level_mem_header {k : Nat} (h : k < (Sheet.ofNodes nodes options).levels) :
    Column.level (k + 1) ∈ (Sheet.ofNodes nodes options).layout.header := by
  refine List.mem_append_left _ ((Column.perm_standard _).mem_iff.mpr ?_)
  exact List.mem_append_right _ (List.mem_append_left _ (List.mem_append_left _
    (List.mem_map_of_mem (Column.succ_mem_upTo.mpr h))))

theorem order_mem_header {k : Nat} (h : k < (Sheet.ofNodes nodes options).levels) :
    Column.levelOrder (k + 1) ∈ (Sheet.ofNodes nodes options).layout.header := by
  refine List.mem_append_left _ ((Column.perm_standard _).mem_iff.mpr ?_)
  exact List.mem_append_right _ (List.mem_append_left _ (List.mem_append_right _
    (List.mem_map_of_mem (Column.succ_mem_upTo.mpr h))))

theorem flag_mem_header {c : String} (mem : c ∈ (Sheet.ofNodes nodes options).customFlags) :
    c ∈ (Sheet.ofNodes nodes options).layout.header :=
  List.mem_append_right _ mem

/-- The columns of the custom flags are the flags of all nodes, in order. -/
theorem customFlags_eq (h : Exportable nodes) (options : ExportOptions) :
    (Sheet.ofNodes nodes options).customFlags =
      Dict.sortedDistinct (nodes.flatMap fun n => Dict.keys n.customFlags) := by
  have eq : (Sheet.ofNodes nodes options).customFlags = Dict.sortedDistinct
      ((Sheet.ofNodes nodes options).written.flatMap fun p => Dict.keys p.2.customFlags) := rfl
  rw [eq]
  refine Dict.sortedDistinct_congr fun k => ?_
  rw [List.mem_flatMap, List.mem_flatMap]
  constructor
  · rintro ⟨q, hq, hk⟩
    exact ⟨q.2, List.mem_of_getElem? ((mem_written h options).mp hq), hk⟩
  · rintro ⟨n, hn, hk⟩
    obtain ⟨i, here⟩ := List.getElem?_of_mem hn
    exact ⟨(i, n), (mem_written h options).mpr here, hk⟩

/-- Every column of a custom flag is that of a written node. -/
theorem exists_written_of_customFlag {options : ExportOptions} {k : String}
    (mem : k ∈ (Sheet.ofNodes nodes options).customFlags) :
    ∃ q ∈ (Sheet.ofNodes nodes options).written, k ∈ Dict.keys q.2.customFlags :=
  List.mem_flatMap.mp (Dict.mem_sortedDistinct.mp mem)

include h

theorem isName_of_mem_customFlags {k : String}
    (mem : k ∈ (Sheet.ofNodes nodes options).customFlags) : CustomFlags.IsName k := by
  obtain ⟨q, hq, hk⟩ := exists_written_of_customFlag mem
  exact (h.of_written hq).flagNames k hk

/-- The columns of an export are distinct. -/
theorem nodup_header : (Sheet.ofNodes nodes options).layout.header.Nodup := by
  refine List.nodup_append'.mpr ⟨Column.nodup_standard (levels_le options),
    Dict.nodup_sortedDistinct _, ?_⟩
  intro c standard flag
  exact (isName_of_mem_customFlags h options flag).free
    (Column.known_of_mem_standard (levels_le options) standard)

/-- The columns of an export are canonical. -/
theorem canonical_header {c : String} (mem : c ∈ (Sheet.ofNodes nodes options).layout.header) :
    Column.IsCanonical c := by
  rcases List.mem_append.mp mem with mem | mem
  · exact Column.canonical_standard (levels_le options) mem
  · exact (isName_of_mem_customFlags h options mem).canonical

/-- An export has no columns of other layouts. -/
theorem foreign_notMem_header {c : String} (mem : c ∈ Column.foreign) :
    c ∉ (Sheet.ofNodes nodes options).layout.header := by
  intro here
  rcases List.mem_append.mp here with here | here
  · exact Column.notMem_standard_of_foreign (levels_le options) mem here
  · exact (isName_of_mem_customFlags h options here).free (Column.known_of_mem_foreign mem)

end Columns

/-! ## A sample -/

/-- A parent with a formula of two operations that take turns, and a child that shares its stored
    key. -/
def twoNodes : List Node :=
  [{ id := "1", hierarchyId := "NET", projectId := "A", name := "Revenue, \"net\"", sortOrder := 2
     customFlags := [("AUDITED", true)], xrefKey := some 7
     formula := some ⟨"Net", "NET", [⟨.sum, "GROSS", 1, none⟩,
       ⟨.subtract, "", 2, some ⟨true, 3 * 2 ^ 51, -52⟩⟩, ⟨.sum, "", 3, some ⟨false, 2 ^ 52, -51⟩⟩],
       none⟩ },
   { id := "2", hierarchyId := "GROSS", projectId := "A", name := "Gross"
     description := some "before tax", parentId := some "1", isRoot := false, sortOrder := -1
     levelSorts := [none, some 4], flags := { leaf := true, active := false }
     customFlags := [("LOCAL", true)], xrefKey := some 7
     filter := some { groups := [("FILTER_GROUP_2", "EU")] } }]

theorem exportable_twoNodes : Exportable twoNodes := by
  refine ⟨by decide, by decide, by decide +kernel, ?_, by decide, ?_⟩
  · refine acyclic_of_rank (fun id => if id = "1" then 0 else 1) ?_
    decide +kernel
  · have names : ∀ k ∈ ["AUDITED", "LOCAL"], CustomFlags.IsName k := by
      intro k hk
      simp only [List.mem_cons, List.not_mem_nil, or_false] at hk
      rcases hk with rfl | rfl
      · exact ⟨by decide, by decide +kernel, ⟨by decide +kernel, by decide +kernel⟩,
          by decide +kernel⟩
      · exact ⟨by decide, by decide +kernel, ⟨by decide +kernel, by decide +kernel⟩,
          by decide +kernel⟩
    intro n hn
    simp only [twoNodes, List.mem_cons, List.not_mem_nil, or_false] at hn
    rcases hn with rfl | rfl
    · refine ⟨by decide +kernel, by decide +kernel, by decide +kernel, by simp, by decide, by simp,
        by simp; decide, ?_, by simp [Dict.Ordered, Dict.keys], by decide, by decide, by decide,
        ?_, ?_⟩
      · intro k hk
        exact names k (by simpa [Dict.keys] using Or.inl hk)
      · rintro f ⟨⟩
        decide
      · rintro f ⟨⟩ r hr x hx
        simp only [List.mem_cons, List.not_mem_nil, or_false] at hr
        rcases hr with rfl | rfl | rfl <;> cases hx <;> decide +kernel
    · refine ⟨by decide +kernel, by decide +kernel, by decide +kernel, ?_, by decide, ?_,
        by simp; decide, ?_, by simp [Dict.Ordered, Dict.keys], by decide +kernel, ?_,
        by decide, by simp, by simp⟩
      · rintro d ⟨⟩
        decide +kernel
      · intro k hk
        simp only [List.mem_cons, List.not_mem_nil, or_false] at hk
        rcases hk with hk | hk <;> cases hk
        decide
      · intro k hk
        exact names k (by simpa [Dict.keys] using Or.inr hk)
      · decide +kernel

end Export

end Rollup

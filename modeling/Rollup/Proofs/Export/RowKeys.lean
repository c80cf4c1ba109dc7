import Mathlib.Data.List.Basic
import Mathlib.Data.List.Nodup
import Mathlib.Data.List.Perm.Lattice
import Rollup.Proofs.Export.Cells
import Rollup.Proofs.Export.LeastKeys
import Rollup.Proofs.Literal

/-!
# The keys of an export identify its rows

Every row of an export has a key of its own, and where a row names the key of a parent, that is
the key of the main row of the parent.

Results:

* `Keyed`: what the keys of the rows of an export are.
* `get_record`, `get_record_place`: what all rows of a node say.
* `get_main_key`, `map_further_key`: the keys of the rows of a node.
* `keyed_blocks`: the keys of an export, whatever the stored ones are.
-/

namespace Rollup

/-! ## Keys as texts -/

theorem Literal.toString_inj {a b : Int} (same : toString a = toString b) : a = b := by
  have read := Literal.readInt?_toString a
  rw [same, Literal.readInt?_toString] at read
  exact (Option.some.inj read).symm

theorem Literal.toString_ne_empty (k : Int) : toString k ≠ "" := by
  intro empty
  exact (Literal.numeral_toString k).1 (by rw [empty]; rfl)

namespace Export

/-! ## Columns that tie rows together -/

/-- The columns that tie the rows of an export together. -/
def linkColumns : List String :=
  [Column.parentId, Column.xrefKey, Column.parentXrefKey]

/-- No custom flag and no filter group of a node that is written has the name of a column that
    ties rows together. -/
def LinksFree (nodes : List Node) : Prop :=
  ∀ n ∈ nodes, n.isPlaceholder = false → ∀ c ∈ linkColumns,
    c ∉ Dict.keys n.customFlags ∧ c ∉ Dict.keys n.filterGroups

instance (nodes : List Node) : Decidable (LinksFree nodes) :=
  inferInstanceAs (Decidable (∀ n ∈ nodes, _))

theorem LinksFree.column {nodes : List Node} (free : LinksFree nodes) {c : String}
    (hc : c ∈ linkColumns) : ColumnFree nodes c :=
  fun n hn described => free n hn described c hc

theorem link_spec : ∀ c ∈ linkColumns, c ∈ Column.fixed ∧ c ∉ Column.formula := by
  decide

namespace Sheet

theorem column_ruleCells (operation : Operation) (rules : List Rule) :
    ∀ q ∈ ruleCells operation rules, q.1 ∈ Column.formula := by
  intro q mem
  rcases List.mem_append.mp mem with mem | mem
  · simp only [List.mem_cons, List.not_mem_nil, or_false] at mem
    rcases mem with rfl | rfl | rfl <;> simp [Column.formula]
  · split at mem
    · rw [List.mem_singleton.mp mem]
      simp [Column.formula]
    · cases mem

theorem column_mainFormulaCells (s : Sheet) (n : Node) :
    ∀ q ∈ s.mainFormulaCells n, q.1 ∈ Column.formula := by
  intro q mem
  unfold mainFormulaCells at mem
  split at mem
  · rename_i f _
    rw [List.cons_append, List.mem_cons, List.mem_append] at mem
    rcases mem with rfl | mem | mem
    · simp [Column.formula]
    · obtain ⟨e, -, rfl⟩ := Option.map_eq_some_iff.mp (Option.mem_toList.mp mem)
      simp [Column.formula]
    · cases first : (rulesByOperation f.rules).head? with
      | none => rw [first] at mem; cases mem
      | some b => rw [first] at mem; exact column_ruleCells b.1 b.2 q mem
  · simp only [List.mem_cons, List.not_mem_nil, or_false] at mem
    rcases mem with rfl | rfl <;> simp [Column.formula]
  · obtain ⟨label, -, rfl⟩ := Option.map_eq_some_iff.mp (Option.mem_toList.mp mem)
    simp [Column.formula]

/-- A further row has a key, and else cells of the formula. -/
theorem column_extraFormulaCells {n : Node} {key : Nat → Int} {k : Nat} {cells : Cells}
    (found : (extraFormulaCells n key)[k]? = some cells) :
    (Column.xrefKey, toString (key k)) ∈ cells ∧
      ∀ q ∈ cells, q = (Column.xrefKey, toString (key k)) ∨ q.1 ∈ Column.formula := by
  unfold extraFormulaCells at found
  split at found
  · cases found
  · rw [List.getElem?_map, List.getElem?_zipIdx, Option.map_map] at found
    obtain ⟨b, -, rfl⟩ := Option.map_eq_some_iff.mp found
    refine ⟨by simp, fun q hq => ?_⟩
    rw [Function.comp_apply, List.mem_append, Nat.zero_add] at hq
    rcases hq with hq | hq
    · simp only [List.mem_cons, List.not_mem_nil, or_false] at hq
      rcases hq with rfl | rfl
      · exact Or.inl rfl
      · exact Or.inr (by simp [Column.formula])
    · exact Or.inr (column_ruleCells b.1 b.2 q hq)

end Sheet

/-! ## Rows by nodes -/

/-- The rows of one node of an export: the main row with its key, and the further ones. -/
structure Block where
  position : Nat
  node : Node
  key : Int
  main : List String
  further : List (List String)

namespace Block

/-- The rows, the main row first. -/
def records (b : Block) : List (List String) :=
  b.main :: b.further

end Block

namespace Sheet

/-- The rows of a node; the further ones have the given keys. -/
def block (s : Sheet) (key : Nat → Int) (q : Nat × Node) : Block where
  position := q.1
  node := q.2
  key := (s.keys.lookup q.1).getD 0
  main := s.layout.fill (s.mainFormulaCells q.2) (s.sharedRow q.1 q.2)
  further := (extraFormulaCells q.2 key).map fun cells =>
    s.layout.fill cells (s.sharedRow q.1 q.2)

/-- The rows of a list of nodes, by nodes. -/
def blocksFrom (s : Sheet) : (key : Nat → Int) → List (Nat × Node) → List Block
  | _, [] => []
  | key, q :: rest => s.block key q :: blocksFrom s (fun k => key (extraRows q.2 + k)) rest

/-- The rows of the sheet, by nodes. -/
def blocks (s : Sheet) (options : ExportOptions) : List Block :=
  s.blocksFrom (s.furtherKey options) s.written

/-- The rows of the blocks are the rows of the export. -/
theorem flatMap_blocks (s : Sheet) (options : ExportOptions) :
    (s.blocks options).flatMap Block.records = s.records options := by
  have run : ∀ (todo : List (Nat × Node)) (next : Int),
      (s.blocksFrom (ExportKeys.further s.mainKeys next) todo).flatMap Block.records =
        s.recordsFrom next todo := by
    intro todo
    induction todo with
    | nil => intro next; rfl
    | cons q todo ih =>
      intro next
      rw [blocksFrom, recordsFrom, List.flatMap_cons, ← ExportKeys.further_after, ih]
      rfl
  exact run _ _

theorem mem_blocksFrom {s : Sheet} {b : Block} (todo : List (Nat × Node)) : ∀ key : Nat → Int,
    b ∈ s.blocksFrom key todo → ∃ q ∈ todo, ∃ key, b = s.block key q := by
  induction todo with
  | nil => intro key mem; cases mem
  | cons q todo ih =>
    intro key mem
    rcases List.mem_cons.mp mem with rfl | mem
    · exact ⟨q, by simp, key, rfl⟩
    · obtain ⟨r, hr, found⟩ := ih _ mem
      exact ⟨r, by simp [hr], found⟩

theorem map_blocksFrom {α : Type} (f : Block → α) (g : Nat × Node → α) {s : Sheet}
    (same : ∀ key q, f (s.block key q) = g q) (todo : List (Nat × Node)) : ∀ key : Nat → Int,
    (s.blocksFrom key todo).map f = todo.map g := by
  induction todo with
  | nil => intro key; rfl
  | cons q todo ih =>
    intro key
    rw [blocksFrom, List.map_cons, List.map_cons, same, ih]

end Sheet

/-! ## The cells that tie rows together -/

/-- Beyond the columns of the formula and the key, a row says what all rows of its node share. -/
theorem get_record {nodes : List Node} {options : ExportOptions} {key : Nat → Int}
    {q : Nat × Node} {r : List String}
    (row : r ∈ ((Sheet.ofNodes nodes options).block key q).records) {c : String}
    (plain : c ∉ Column.formula) (noKey : c ≠ Column.xrefKey) :
    (Sheet.ofNodes nodes options).layout.get r c =
      (Sheet.ofNodes nodes options).layout.get
        ((Sheet.ofNodes nodes options).sharedRow q.1 q.2) c := by
  rcases List.mem_cons.mp row with rfl | further
  · refine Layout.get_fill_of_notMem (fun known => ?_) (Sheet.length_sharedRow _ q.1 q.2)
    obtain ⟨p, hp, rfl⟩ := List.mem_map.mp known
    exact plain (Sheet.column_mainFormulaCells _ q.2 p hp)
  · obtain ⟨cells, hcells, rfl⟩ := List.mem_map.mp further
    obtain ⟨k, found⟩ := List.getElem?_of_mem hcells
    refine Layout.get_fill_of_notMem (fun known => ?_) (Sheet.length_sharedRow _ q.1 q.2)
    obtain ⟨p, hp, rfl⟩ := List.mem_map.mp known
    rcases (Sheet.column_extraFormulaCells found).2 p hp with rfl | formula
    · exact noKey rfl
    · exact plain formula

/-- All rows of a node say the same about what the node is and where it stands. -/
theorem get_record_place {nodes : List Node} {c : String} (free : ColumnFree nodes c)
    {options : ExportOptions} {i : Nat} {n : Node}
    (mem : (i, n) ∈ (Sheet.ofNodes nodes options).written) (key : Nat → Int) (hc : c ∈ Column.place)
    {record : List String}
    (row : record ∈ ((Sheet.ofNodes nodes options).block key (i, n)).records) :
    (Sheet.ofNodes nodes options).layout.get record c =
      (((Sheet.ofNodes nodes options).placeCells i n).lookup c).getD "" := by
  obtain ⟨ne, apart, -⟩ := (Column.disjoint_columns c).1 hc
  exact (get_record row apart ne).trans (get_sharedRow_place mem free hc)

section Rows

variable {nodes : List Node} (free : LinksFree nodes) {options : ExportOptions} {i : Nat} {n : Node}
  (mem : (i, n) ∈ (Sheet.ofNodes nodes options).written) (key : Nat → Int)

/-- The further rows have the given keys. -/
theorem map_further_key :
    ((Sheet.ofNodes nodes options).block key (i, n)).further.map
        ((Sheet.ofNodes nodes options).layout.get · Column.xrefKey) =
      (List.range (extraRows n)).map fun k => toString (key k) := by
  set s := Sheet.ofNodes nodes options
  have column : Column.xrefKey ∈ linkColumns := by simp [linkColumns]
  have header : Column.xrefKey ∈ s.layout.header := fixed_mem_header options (link_spec _ column).1
  rw [Sheet.block, List.map_map]
  refine List.ext_getElem? fun k => ?_
  rw [List.getElem?_map, List.getElem?_map]
  cases found : (Sheet.extraFormulaCells n key)[k]? with
  | none =>
    have bound := List.getElem?_eq_none_iff.mp found
    rw [length_extraFormulaCells] at bound
    rw [List.getElem?_eq_none (by simpa using bound)]
    rfl
  | some cells =>
    have bound := (List.getElem?_eq_some_iff.mp found).1
    rw [length_extraFormulaCells] at bound
    obtain ⟨keyed, kinds⟩ := Sheet.column_extraFormulaCells found
    rw [List.getElem?_range bound, Option.map_some, Option.map_some]
    rw [Function.comp_apply]
    refine congrArg some ?_
    rcases Layout.get_fill_cases header cells (s.length_sharedRow i n) with absent | there
    · exact absurd (List.mem_map_of_mem keyed) absent.1
    · rcases kinds _ there with eq | formula
      · exact (Prod.mk.inj eq).2
      · exact absurd formula (link_spec _ column).2

include free mem

/-- The main row has the main key. -/
theorem get_main_key :
    (Sheet.ofNodes nodes options).layout.get
        ((Sheet.ofNodes nodes options).block key (i, n)).main Column.xrefKey =
      toString ((Sheet.ofNodes nodes options).block key (i, n)).key := by
  obtain ⟨main, found⟩ := exists_key _ mem
  have apart : Column.xrefKey ∉
      ((Sheet.ofNodes nodes options).mainFormulaCells n).map (·.1) := by
    intro known
    obtain ⟨q, hq, same⟩ := List.mem_map.mp known
    have formula := Sheet.column_mainFormulaCells _ n q hq
    exact ((Column.disjoint_columns _).2.1 same).1 formula
  rw [Sheet.block, Layout.get_fill_of_notMem apart (Sheet.length_sharedRow _ i n),
    get_sharedRow_key mem (free.column (by simp [linkColumns])) found, found, Option.getD_some]

end Rows

/-! ## Keys of the rows -/

/-- What the keys of the rows of an export are. Each column that ties rows together is there once.
    The main rows have main keys, the further rows of all nodes count on from a key beyond them, no
    two rows share a key, and a row with the key of a parent names the main row of that parent. -/
structure Keyed (s : Sheet) (start : Int) (blocks : List Block) : Prop where
  written : blocks.map (fun b => (b.position, b.node)) = s.written
  columns : ∀ c ∈ linkColumns, s.layout.header.count c = 1
  size : ∀ b ∈ blocks, b.further.length = extraRows b.node
  main : ∀ b ∈ blocks, s.layout.get b.main Column.xrefKey = toString b.key
  mainKeys : ExportKeys.MainKeys (blocks.map (·.node.xrefKey)) (blocks.map (·.key))
  further : ∃ first, start ≤ first ∧ (∀ b ∈ blocks, b.key < first) ∧
    (blocks.flatMap (·.further)).map (s.layout.get · Column.xrefKey) =
      (List.range (blocks.flatMap (·.further)).length).map fun k : Nat => toString (first + k)
  present : ∀ r ∈ blocks.flatMap Block.records, s.layout.get r Column.xrefKey ≠ ""
  distinct : ((blocks.flatMap Block.records).map (s.layout.get · Column.xrefKey)).Nodup
  linked : ∀ b ∈ blocks, ∀ p ∈ blocks, s.forest.parent? b.position = some p.position →
    ∀ r ∈ b.records, s.layout.get r Column.parentXrefKey = toString p.key
  parents : ∀ b ∈ blocks, ∀ r ∈ b.records, s.layout.get r Column.parentXrefKey ≠ "" →
    ∃ p ∈ blocks, s.forest.parent? b.position = some p.position ∧
      s.layout.get r Column.parentId = p.node.hierarchyId ∧
      ∀ r' ∈ blocks.flatMap Block.records,
        s.layout.get r' Column.xrefKey = s.layout.get r Column.parentXrefKey ↔ r' = p.main

/-- A fixed column is in the header once. -/
theorem count_fixed {nodes : List Node} {c : String} (free : ColumnFree nodes c)
    (options : ExportOptions) (fixed : c ∈ Column.fixed) :
    (Sheet.ofNodes nodes options).layout.header.count c = 1 := by
  have levels : (Sheet.ofNodes nodes options).levels ≤ Column.maxLevels := levels_le options
  have once := List.count_eq_one_of_mem (Column.nodup_standard levels)
    (Column.mem_standard_of_fixed fixed _)
  rw [Sheet.layout, List.count_append, once, List.count_eq_zero_of_not_mem (notMem_customFlags free)]

section Keyed

variable {nodes : List Node} (free : LinksFree nodes) (options : ExportOptions)

theorem mem_blocks {b : Block}
    (mem : b ∈ (Sheet.ofNodes nodes options).blocks options) :
    ∃ i n key, (i, n) ∈ (Sheet.ofNodes nodes options).written ∧
      b = (Sheet.ofNodes nodes options).block key (i, n) := by
  obtain ⟨q, hq, key, rfl⟩ := Sheet.mem_blocksFrom _ _ mem
  exact ⟨q.1, q.2, key, hq, rfl⟩

/-- A node with a main key has a block with that key. -/
theorem exists_block {i : Nat} {key : Int}
    (found : (Sheet.ofNodes nodes options).keys.lookup i = some key) :
    ∃ b ∈ (Sheet.ofNodes nodes options).blocks options, b.position = i ∧ b.key = key ∧
      nodes[i]? = some b.node := by
  have known := ExportKeys.mem_map_fst_main.mp (List.mem_map_of_mem (f := Prod.fst)
    (mem_of_lookup found))
  rw [List.map_map] at known
  obtain ⟨q, hq, rfl⟩ := List.mem_map.mp known
  have there : q ∈ ((Sheet.ofNodes nodes options).blocks options).map
      fun b => (b.position, b.node) := by
    rwa [Sheet.blocks, Sheet.map_blocksFrom _ id fun _ _ => rfl, List.map_id]
  obtain ⟨b, hb, rfl⟩ := List.mem_map.mp there
  obtain ⟨i, n, stream, mem, rfl⟩ := mem_blocks options hb
  refine ⟨_, hb, rfl, ?_, getElem?_of_written mem⟩
  exact congrArg (Option.getD · 0) found

/-- The further rows of all nodes have the further keys, one after the other. -/
theorem map_further_blocks (nodes : List Node) (options : ExportOptions) :
    (((Sheet.ofNodes nodes options).blocks options).flatMap (·.further)).map
        ((Sheet.ofNodes nodes options).layout.get · Column.xrefKey) =
      (List.range (Sheet.ofNodes nodes options).furtherRows).map fun k =>
        toString ((Sheet.ofNodes nodes options).furtherKey options k) := by
  have run : ∀ (todo : List (Nat × Node)) (key : Nat → Int),
      (((Sheet.ofNodes nodes options).blocksFrom key todo).flatMap (·.further)).map
          ((Sheet.ofNodes nodes options).layout.get · Column.xrefKey) =
        (List.range (todo.map fun q => extraRows q.2).sum).map fun k => toString (key k) := by
    intro todo
    induction todo with
    | nil => intro key; rfl
    | cons q todo ih =>
      intro key
      rw [Sheet.blocksFrom, List.flatMap_cons, List.map_append, map_further_key, ih, List.map_cons,
        List.sum_cons, List.range_add, List.map_append, List.map_map]
      rfl
  exact run _ _

include free

theorem count_link {c : String} (hc : c ∈ linkColumns) :
    (Sheet.ofNodes nodes options).layout.header.count c = 1 :=
  count_fixed (free.column hc) options (link_spec c hc).1

/-- The keys of all rows: the main keys and the further keys. -/
theorem perm_keys :
    ((((Sheet.ofNodes nodes options).blocks options).flatMap Block.records).map
        ((Sheet.ofNodes nodes options).layout.get · Column.xrefKey)).Perm
      ((((Sheet.ofNodes nodes options).blocks options).map (·.key) ++
        (List.range (Sheet.ofNodes nodes options).furtherRows).map
          ((Sheet.ofNodes nodes options).furtherKey options)).map fun k => toString k) := by
  have split := (List.map_append_flatMap_perm ((Sheet.ofNodes nodes options).blocks options)
    Block.main Block.further).symm.map ((Sheet.ofNodes nodes options).layout.get · Column.xrefKey)
  refine split.trans (List.Perm.of_eq ?_)
  rw [List.map_append, List.map_append, List.map_map, List.map_map, List.map_map]
  refine congrArg₂ _ (List.map_congr_left fun b hb => ?_) (map_further_blocks nodes options)
  obtain ⟨i, n, key, mem, rfl⟩ := mem_blocks options hb
  rw [Function.comp_apply, Function.comp_apply]
  exact get_main_key free mem key

omit free in
/-- The keys of main rows are distinct and lie below the number beyond them. -/
theorem nodup_blockKeys (nodes : List Node) (options : ExportOptions) :
    (((Sheet.ofNodes nodes options).blocks options).map (·.key)).Nodup ∧
    ∀ b ∈ (Sheet.ofNodes nodes options).blocks options, b.key <
      ExportKeys.beyond options.syntheticXrefStart (Sheet.ofNodes nodes options).keys := by
  constructor
  · rw [Sheet.blocks, Sheet.map_blocksFrom _ (fun q =>
      ((Sheet.ofNodes nodes options).keys.lookup q.1).getD 0) fun _ _ => rfl]
    have nodup := nodup_written nodes options
    refine (List.Nodup.of_map _ nodup).map_on fun q hq r hr same => ?_
    obtain ⟨key, hkey⟩ := exists_key _ hq
    obtain ⟨key', hkey'⟩ := exists_key _ hr
    rw [hkey, hkey', Option.getD_some, Option.getD_some] at same
    exact List.inj_on_of_nodup_map nodup hq hr (key_unique options hkey (same ▸ hkey'))
  · intro b hb
    obtain ⟨i, n, key, mem, rfl⟩ := mem_blocks options hb
    obtain ⟨main, found⟩ := exists_key _ mem
    have below := (ExportKeys.lt_beyond (Sheet.ofNodes nodes options).keys
      options.syntheticXrefStart).2 _ (mem_of_lookup found)
    rwa [Sheet.block, found]

section Rising

variable (fits : Literal.inRange (nextKey nodes options) = true)

include fits

omit free in
/-- As long as the counter has 64 bits, the further keys count up. -/
theorem map_furtherKey : (List.range (Sheet.ofNodes nodes options).furtherRows).map
      ((Sheet.ofNodes nodes options).furtherKey options) =
    (List.range (Sheet.ofNodes nodes options).furtherRows).map fun k : Nat =>
      ExportKeys.beyond options.syntheticXrefStart (Sheet.ofNodes nodes options).keys + k :=
  List.map_congr_left fun _ hk => furtherKey_of_fits options fits (List.mem_range.mp hk).le

/-- No two rows share a key. -/
theorem nodup_recordKeys :
    ((((Sheet.ofNodes nodes options).blocks options).flatMap Block.records).map
      ((Sheet.ofNodes nodes options).layout.get · Column.xrefKey)).Nodup := by
  obtain ⟨nodup, below⟩ := nodup_blockKeys nodes options
  rw [(perm_keys free options).nodup_iff, map_furtherKey options fits]
  refine List.Nodup.map (fun _ _ => Literal.toString_inj) (List.nodup_append'.mpr ⟨nodup, ?_, ?_⟩)
  · exact List.nodup_range.map fun j k same => by omega
  · intro key main further
    obtain ⟨b, hb, rfl⟩ := List.mem_map.mp main
    obtain ⟨k, -, same⟩ := List.mem_map.mp further
    have := below b hb
    omega

end Rising

/-- The row that the key of a parent leads to. -/
theorem parent_record {b : Block} (hb : b ∈ (Sheet.ofNodes nodes options).blocks options)
    {r : List String} (hr : r ∈ b.records)
    (named : (Sheet.ofNodes nodes options).layout.get r Column.parentXrefKey ≠ "") :
    ∃ p ∈ (Sheet.ofNodes nodes options).blocks options,
      (Sheet.ofNodes nodes options).forest.parent? b.position = some p.position ∧
      (Sheet.ofNodes nodes options).layout.get r Column.parentId = p.node.hierarchyId ∧
      (Sheet.ofNodes nodes options).layout.get r Column.parentXrefKey =
        (Sheet.ofNodes nodes options).layout.get p.main Column.xrefKey := by
  obtain ⟨i, n, stream, mem, rfl⟩ := mem_blocks options hb
  have key := get_record_place (free.column (c := Column.parentXrefKey) (by simp [linkColumns])) mem
    stream (by simp [Column.place]) hr
  have id := get_record_place (free.column (c := Column.parentId) (by simp [linkColumns])) mem
    stream (by simp [Column.place]) hr
  rw [Sheet.lookup_parentXrefKey] at key
  rw [Sheet.lookup_parentId] at id
  cases parent : (Sheet.ofNodes nodes options).forest.parent? i with
  | none =>
    rw [parent] at key
    exact absurd key named
  | some p =>
    rw [parent, Option.bind_some] at key id
    cases found : (Sheet.ofNodes nodes options).keys.lookup p with
    | none =>
      rw [found] at key
      exact absurd key named
    | some k =>
      obtain ⟨c, hc, rfl, rfl, there⟩ := exists_block options found
      obtain ⟨j, m, stream', mem', rfl⟩ := mem_blocks options hc
      rw [found] at key
      rw [forest_ofNodes] at id
      refine ⟨_, hc, parent, id.trans ?_, key.trans (get_main_key free mem' stream').symm⟩
      exact congrArg (fun o => (Option.map (·.hierarchyId) o).getD "") there

/-- The keys of the rows of an export, whatever the stored keys are. -/
theorem keyed_blocks (fits : Literal.inRange (nextKey nodes options) = true) :
    Keyed (Sheet.ofNodes nodes options) options.syntheticXrefStart
      ((Sheet.ofNodes nodes options).blocks options) := by
  set s := Sheet.ofNodes nodes options with hs
  have main : ∀ b ∈ s.blocks options, s.layout.get b.main Column.xrefKey = toString b.key := by
    intro b hb
    obtain ⟨i, n, key, mem, rfl⟩ := mem_blocks options hb
    exact get_main_key free mem key
  have distinct := nodup_recordKeys free options fits
  have mainMem : ∀ b ∈ s.blocks options, b.main ∈ (s.blocks options).flatMap Block.records :=
    fun b hb => List.mem_flatMap.mpr ⟨b, hb, List.mem_cons_self⟩
  refine ⟨?_, fun c hc => count_link free options hc, ?_, main, ?_, ?_, ?_, distinct, ?_, ?_⟩
  · rw [Sheet.blocks, Sheet.map_blocksFrom _ id fun _ _ => rfl, List.map_id]
  · intro b hb
    obtain ⟨i, n, key, -, rfl⟩ := mem_blocks options hb
    rw [Sheet.block, List.length_map, length_extraFormulaCells]
  · have keys := ExportKeys.mainKeys_main (nodup_storedKeys nodes options)
    rw [Sheet.storedKeys, List.map_map, List.map_map] at keys
    rw [Sheet.blocks, Sheet.map_blocksFrom _ (fun q => q.2.xrefKey) fun _ _ => rfl,
      Sheet.map_blocksFrom _ (fun q => (s.keys.lookup q.1).getD 0) fun _ _ => rfl]
    exact keys
  · have keys := map_further_blocks nodes options
    have count := congrArg List.length keys
    rw [List.length_map, List.length_map, List.length_range] at count
    refine ⟨_, (ExportKeys.lt_beyond s.keys _).1, (nodup_blockKeys nodes options).2, ?_⟩
    rw [keys, count]
    refine List.map_congr_left fun k hk => ?_
    rw [furtherKey_of_fits options fits (List.mem_range.mp hk).le]
  · intro r hr
    obtain ⟨k, -, same⟩ := List.mem_map.mp ((perm_keys free options).mem_iff.mp
      (List.mem_map_of_mem hr))
    rw [← same]
    exact Literal.toString_ne_empty k
  · intro b hb p hp parent r hr
    obtain ⟨i, n, stream, mem, rfl⟩ := mem_blocks options hb
    obtain ⟨j, m, stream', mem', rfl⟩ := mem_blocks options hp
    obtain ⟨key, found⟩ := exists_key _ mem'
    rw [get_record_place (free.column (by simp [linkColumns])) mem stream (by simp [Column.place]) hr,
      Sheet.lookup_parentXrefKey]
    have parent : (Sheet.ofNodes nodes options).forest.parent? i = some j := parent
    rw [parent, Option.bind_some, found, Sheet.block, found]
    rfl
  · intro b hb r hr named
    obtain ⟨p, hp, parent, id, key⟩ := parent_record free options hb hr named
    refine ⟨p, hp, parent, id, fun r' hr' => ?_⟩
    rw [key]
    constructor
    · exact fun same => List.inj_on_of_nodup_map distinct hr' (mainMem p hp) same
    · rintro rfl
      rfl

end Keyed

/-- The rows of an export are identified by their keys, as long as the counter of keys has 64 bits,
    and unless a custom flag or a filter group takes the place of one of the columns that tie rows
    together. -/
theorem keyed_hierarchy (nodes : List Node) (options : ExportOptions) (free : LinksFree nodes)
    (fits : Literal.inRange (nextKey nodes options) = true) :
    ∃ blocks, Export.hierarchy nodes options =
        (Sheet.ofNodes nodes options).layout.write (blocks.flatMap Block.records) ∧
      Keyed (Sheet.ofNodes nodes options) options.syntheticXrefStart blocks := by
  refine ⟨_, ?_, keyed_blocks free options fits⟩
  rw [Sheet.flatMap_blocks]
  rfl

theorem keyed_hierarchy_twoNodes : LinksFree twoNodes ∧
    Literal.inRange (nextKey twoNodes {}) = true ∧
    ∃ blocks, Export.hierarchy twoNodes {} =
        (Sheet.ofNodes twoNodes {}).layout.write (blocks.flatMap Block.records) ∧
      Keyed (Sheet.ofNodes twoNodes {}) 1000 blocks :=
  have free : LinksFree twoNodes := by decide +kernel
  have fits : Literal.inRange (nextKey twoNodes {}) = true := by decide +kernel
  ⟨free, fits, keyed_hierarchy twoNodes {} free fits⟩

/-- A custom flag that is named like the column of keys takes its place: the row has no key, and
    the flag stands in a second column of that name. -/
theorem xrefKey_flagNamedKey :
    let nodes : List Node := [{ id := "1", hierarchyId := "A", projectId := "", name := "Alpha"
                                customFlags := [("XREF_KEY", true)] }]
    let s := Sheet.ofNodes nodes {}
    s.keys = [(0, 1)] ∧
      (s.records {}).map (fun r => (s.layout.header.zip r).filter (·.1 = Column.xrefKey)) =
        [[("XREF_KEY", ""), ("XREF_KEY", "TRUE")]] := by
  decide +kernel

end Export

end Rollup

import Mathlib.Data.List.Forall2
import Rollup.Check.Siblings
import Rollup.Proofs.Forest
import Rollup.Proofs.Text.Fold
import Rollup.Proofs.Text.Parts

/-!
# The minority among siblings

The tables of several children are counted in ascending order, and a table takes the lead only with
more readers than all before it. So the table found is the first one in the alphabet among those
with the most readers. Which tables a node reads from depends on the spelling of their names up to
case and outer blanks, and not on the order of its mappings.

Results:

* `Respelled.upper_trim_eq`: the spellings of one name are compared as equal.
* `mem_tablesOf`: the tables of a node.
* `exists_dominantTable?`: the table found has the most readers.
* `minority_exact`: what is reported of the children of one node.
* `minority_congr`: it depends on the tables that the nodes read from only.
* `patternConsistency_exact`: what is reported for a list of nodes.
-/

namespace Rollup

/-! ## Spellings -/

namespace Text

/-- Two spellings of one name: they differ in case, in the blanks around them, or in both. -/
inductive Respelled : String → String → Prop where
  | recased {s t : String} : upper s = upper t → Respelled s t
  | padded {s t : String} : trim s = trim t → Respelled s t
  | trans {s t u : String} : Respelled s t → Respelled t u → Respelled s u

theorem Respelled.upper_trim_eq {s t : String} (h : Respelled s t) :
    upper (trim s) = upper (trim t) := by
  induction h with
  | recased same => rw [← trim_upper, ← trim_upper, same]
  | padded same => rw [same]
  | trans _ _ first second => exact first.trans second

/-- Texts are spellings of one name if they are equal up to outer blanks and the case of ASCII
    letters. -/
theorem Respelled.ofAsciiCase {s t : String}
    (h : equalIgnoringAsciiCase (trim s) (trim t) = true) : Respelled s t := by
  have lowered : ∀ s : String,
      (upper s).toList = (s.toList.map Char.toLower).flatMap upperChar := by
    intro s
    rw [toList_upper, List.flatMap_map]
    exact List.flatMap_congr fun c _ => (upperChar_toLower c).symm
  rw [equalIgnoringAsciiCase, beq_iff_eq] at h
  have same : upper (trim s) = upper (trim t) :=
    String.toList_inj.mp (by rw [lowered, lowered, h])
  exact (padded (trim_trim s).symm).trans ((recased same).trans (padded (trim_trim t)))

end Text

namespace Check

/-! ## Tables -/

/-- Whether a node has a mapping to a table, given by its name trimmed and in upper case. -/
def readsFrom (table : String) (n : Node) : Bool :=
  n.mappings.any fun m => Text.upper (Text.trim m.table) == table

/-- Whether a node has a mapping that names a table. -/
def readsTable (n : Node) : Bool :=
  n.mappings.any fun m => !Text.isAllBlank m.table

/-- The children of the node at a position that read from some table. -/
def readingChildren (nodes : List Node) (i : Nat) : List Node :=
  nodes.filter fun n => n.parentId.bind (Forest.position? nodes) == some i && readsTable n

/-- The table that most nodes of a list read from, the first one in the alphabet among equals. -/
structure IsDominant (children : List Node) (table : String) : Prop where
  named : table ≠ ""
  used : 0 < children.countP (readsFrom table)
  most : ∀ other, other ≠ "" →
    children.countP (readsFrom other) ≤ children.countP (readsFrom table)
  first : ∀ other, other ≠ "" →
    children.countP (readsFrom other) = children.countP (readsFrom table) → table ≤ other

theorem IsDominant.unique {children : List Node} {s t : String} (hs : IsDominant children s)
    (ht : IsDominant children t) : s = t := by
  have same := (ht.most s hs.named).antisymm (hs.most t ht.named)
  exact String.le_antisymm (hs.first t ht.named same.symm) (ht.first s hs.named same)

/-- The tables of a node are the names that it reads from. -/
theorem mem_tablesOf {n : Node} {t : String} :
    t ∈ tablesOf n ↔ t ≠ "" ∧ readsFrom t n = true := by
  rw [tablesOf, Dict.mem_sortedDistinct, List.mem_filter, List.mem_map, readsFrom,
    List.any_eq_true, decide_eq_true_eq, and_comm]
  simp only [beq_iff_eq]

theorem contains_tablesOf {n : Node} {t : String} (named : t ≠ "") :
    (tablesOf n).contains t = readsFrom t n := by
  rw [Bool.eq_iff_iff, List.contains_iff_mem, mem_tablesOf, and_iff_right named]

theorem readsTable_eq (n : Node) : readsTable n = !(tablesOf n).isEmpty := by
  rw [Bool.eq_iff_iff, readsTable, List.any_eq_true, Bool.not_eq_true',
    List.isEmpty_eq_false_iff_exists_mem]
  constructor
  · rintro ⟨m, hm, filled⟩
    rw [Bool.not_eq_true', ← Bool.not_eq_true, Text.isAllBlank_iff_upper_trim] at filled
    exact ⟨_, mem_tablesOf.mpr ⟨filled, List.any_eq_true.mpr ⟨m, hm, beq_self_eq_true _⟩⟩⟩
  · rintro ⟨t, ht⟩
    obtain ⟨named, reads⟩ := mem_tablesOf.mp ht
    obtain ⟨m, hm, same⟩ := List.any_eq_true.mp reads
    refine ⟨m, hm, ?_⟩
    rw [Bool.not_eq_true', ← Bool.not_eq_true, Text.isAllBlank_iff_upper_trim, beq_iff_eq.mp same]
    exact named

/-- The children that are looked at, with their tables. -/
theorem mappedChildren_ofNodes (nodes : List Node) (i : Nat) :
    mappedChildren (Forest.ofNodes nodes) i =
      (readingChildren nodes i).map fun n => ⟨n, tablesOf n⟩ := by
  have positions := filterMap_getElem?_filter nodes fun n =>
    n.parentId.bind (Forest.position? nodes) == some i
  rw [mappedChildren, Forest.children_ofNodes]
  dsimp only [Forest.ofNodes]
  rw [positions]
  have kept : readingChildren nodes i =
      (nodes.filter fun n => n.parentId.bind (Forest.position? nodes) == some i).filterMap
        (Option.guard readsTable) := by
    rw [List.filterMap_eq_filter, List.filter_filter, readingChildren]
    simp only [Bool.and_comm]
  rw [kept, List.map_filterMap]
  refine List.filterMap_congr fun n _ => ?_
  rw [Option.guard, readsTable_eq]
  cases tables : tablesOf n <;> simp [tables]

/-! ## Counting -/

theorem useCount_map {children : List Node} {t : String} (named : t ≠ "") :
    useCount (children.map fun n => ⟨n, tablesOf n⟩) t = children.countP (readsFrom t) := by
  rw [useCount, List.countP_map]
  refine List.countP_congr fun n _ => ?_
  rw [Function.comp_apply, contains_tablesOf named]

/-- Some tables in ascending order are counted, and one of them leads: it has more readers than
    those before it and no fewer than those after it. -/
structure Leads (count : String → Nat) (seen : List String) (lead : String) : Prop where
  mem : lead ∈ seen
  before : ∀ t ∈ seen, count t < count lead ∨ count t = count lead ∧ lead ≤ t

/-- The table that leads once one more is counted. -/
def overtake (count : String → Nat) (best : Option String) (table : String) : Option String :=
  match best with
  | none => some table
  | some b => if count b < count table then some table else some b

variable {count : String → Nat} {seen : List String} {lead : String}

/-- A table that comes after all counted ones leads if it has more readers. -/
theorem Leads.overtake (h : Leads count seen lead) {next : String} (after : ∀ t ∈ seen, t < next) :
    ∃ t, Check.overtake count (some lead) next = some t ∧ Leads count (seen ++ [next]) t := by
  by_cases more : count lead < count next
  · refine ⟨next, if_pos more, by simp, fun t ht => ?_⟩
    rcases List.mem_append.mp ht with ht | ht
    · rcases h.before t ht with fewer | ⟨same, -⟩ <;> exact Or.inl (by omega)
    · rw [List.mem_singleton.mp ht]
      exact Or.inr ⟨rfl, String.le_refl next⟩
  · refine ⟨lead, if_neg more, List.mem_append_left _ h.mem, fun t ht => ?_⟩
    rcases List.mem_append.mp ht with ht | ht
    · exact h.before t ht
    · rw [List.mem_singleton.mp ht]
      rcases Nat.lt_or_eq_of_le (Nat.not_lt.mp more) with fewer | same
      · exact Or.inl fewer
      · exact Or.inr ⟨same, String.not_lt.mp (String.lt_asymm (after lead h.mem))⟩

/-- The table that leads after all are counted. -/
theorem Leads.foldl (tables : List String) : ∀ {seen : List String} {lead : String},
    Leads count seen lead → (seen ++ tables).Pairwise (· < ·) →
      ∃ t, tables.foldl (Check.overtake count) (some lead) = some t ∧
        Leads count (seen ++ tables) t := by
  induction tables with
  | nil =>
    intro seen lead h _
    exact ⟨lead, rfl, by rwa [List.append_nil]⟩
  | cons next tables ih =>
    intro seen lead h ascending
    have after : ∀ t ∈ seen, t < next := fun t ht =>
      (List.pairwise_append.mp ascending).2.2 t ht next List.mem_cons_self
    obtain ⟨b, step, leads⟩ := h.overtake after
    rw [List.append_cons] at ascending ⊢
    rw [List.foldl_cons, step]
    exact ih leads ascending

section Dominant

variable {children : List Node}

/-- The tables that are counted for some nodes. -/
def countedTables (children : List Node) : List String :=
  Dict.sortedDistinct ((children.map fun n => ⟨n, tablesOf n⟩).flatMap MappedChild.tables)

theorem mem_countedTables {t : String} :
    t ∈ countedTables children ↔ t ≠ "" ∧ 0 < children.countP (readsFrom t) := by
  rw [countedTables, Dict.mem_sortedDistinct, List.flatMap_map, List.mem_flatMap,
    List.countP_pos_iff]
  simp only [mem_tablesOf]
  constructor
  · rintro ⟨n, hn, named, reads⟩
    exact ⟨named, n, hn, reads⟩
  · rintro ⟨named, n, hn, reads⟩
    exact ⟨n, hn, named, reads⟩

/-- The leading one of the counted tables is dominant: no table that is not counted has readers. -/
theorem Leads.isDominant {t : String}
    (h : Leads (useCount (children.map fun n => ⟨n, tablesOf n⟩)) (countedTables children) t) :
    IsDominant children t := by
  obtain ⟨named, used⟩ := mem_countedTables.mp h.mem
  have before : ∀ other, other ≠ "" →
      children.countP (readsFrom other) < children.countP (readsFrom t) ∨
        children.countP (readsFrom other) = children.countP (readsFrom t) ∧ t ≤ other := by
    intro other name
    rcases Nat.eq_zero_or_pos (children.countP (readsFrom other)) with none | some
    · exact Or.inl (by omega)
    · have counted := h.before other (mem_countedTables.mpr ⟨name, some⟩)
      rwa [useCount_map name, useCount_map named] at counted
  refine ⟨named, used, fun other name => ?_, fun other name same => ?_⟩
  · rcases before other name with fewer | ⟨same, -⟩ <;> omega
  · rcases before other name with fewer | ⟨-, least⟩
    · omega
    · exact least

/-- As soon as a child reads from a table, the table found is the dominant one. -/
theorem exists_dominantTable? (reading : ∃ n ∈ children, readsTable n = true) :
    ∃ t, dominantTable? (children.map fun n => ⟨n, tablesOf n⟩) = some t ∧
      IsDominant children t := by
  obtain ⟨n, hn, reads⟩ := reading
  rw [readsTable_eq, Bool.not_eq_true', List.isEmpty_eq_false_iff_exists_mem] at reads
  obtain ⟨s, hs⟩ := reads
  obtain ⟨named, reads⟩ := mem_tablesOf.mp hs
  have counted := mem_countedTables.mpr ⟨named, List.countP_pos_iff.mpr ⟨n, hn, reads⟩⟩
  obtain ⟨first, rest, tables⟩ := List.exists_cons_of_ne_nil (List.ne_nil_of_mem counted)
  have ascending : (countedTables children).Pairwise (· < ·) := Dict.sorted_sortedDistinct _
  rw [tables] at ascending
  have start : Leads (useCount (children.map fun n => ⟨n, tablesOf n⟩)) [first] first :=
    ⟨List.mem_cons_self, by simp⟩
  obtain ⟨t, found, leads⟩ := Leads.foldl rest start ascending
  rw [List.singleton_append, ← tables] at leads
  refine ⟨t, ?_, leads.isDominant⟩
  rw [← found]
  show (countedTables children).foldl _ none = _
  rw [tables]
  rfl

end Dominant

/-! ## Findings -/

/-- The findings for the children that do not read from a table: there are some if not all children
    read from it and the share of those that do is not below the threshold. -/
def outsiders (below : Binary64 → Bool) (parent : Node) (children : List Node) (table : String) :
    List Finding :=
  let used := children.countP (readsFrom table)
  let share := Binary64.ofRatio used children.length
  if used < children.length ∧ below share = false then
    (children.filter (!readsFrom table ·)).map fun n =>
      patternInconsistency parent table share ⟨n, tablesOf n⟩
  else []

/-- What is reported of the children of one node. Those that read from no table do not count; if
    there are at least two others, their dominant table decides. -/
theorem minority_exact (nodes : List Node) (below : Binary64 → Bool) (parent : Node) (i : Nat) :
    let children := readingChildren nodes i
    (children.length < 2 → minority (Forest.ofNodes nodes) below parent i = []) ∧
    (2 ≤ children.length → ∃ t, IsDominant children t ∧
      minority (Forest.ofNodes nodes) below parent i = outsiders below parent children t) := by
  intro children
  have length : (mappedChildren (Forest.ofNodes nodes) i).length = children.length := by
    rw [mappedChildren_ofNodes, List.length_map]
  constructor
  · intro few
    rw [minority]
    dsimp only
    cases dominantTable? (mappedChildren (Forest.ofNodes nodes) i) with
    | none => rfl
    | some t => exact if_pos (Or.inl (length ▸ few))
  · intro several
    have reading : ∃ n ∈ children, readsTable n = true := by
      obtain ⟨n, hn⟩ := List.exists_mem_of_length_pos (Nat.lt_of_lt_of_le Nat.two_pos several)
      obtain ⟨-, both⟩ := List.mem_filter.mp hn
      exact ⟨n, hn, ((Bool.and_eq_true _ _).mp both).2⟩
    obtain ⟨t, found, dominant⟩ := exists_dominantTable? reading
    refine ⟨t, dominant, ?_⟩
    rw [minority]
    dsimp only
    rw [mappedChildren_ofNodes, found]
    dsimp only
    rw [useCount_map dominant.named, List.length_map, outsiders]
    have bound : children.countP (readsFrom t) ≤ children.length := List.countP_le_length
    by_cases shown : children.countP (readsFrom t) < children.length ∧
        below (Binary64.ofRatio (children.countP (readsFrom t)) children.length) = false
    · rw [if_pos shown, if_neg, List.filter_map, List.map_map]
      · simp only [Function.comp_def, contains_tablesOf dominant.named]
        rfl
      · rintro (few | small | all)
        · exact absurd few (Nat.not_lt.mpr several)
        · exact absurd small (Bool.eq_false_iff.mp shown.2)
        · exact absurd all shown.1.ne
    · rw [if_neg shown, if_pos]
      cases small : below (Binary64.ofRatio (children.countP (readsFrom t)) children.length) with
      | true => exact Or.inr (Or.inl rfl)
      | false => exact Or.inr (Or.inr (bound.antisymm (Nat.not_lt.mp fun lt => shown ⟨lt, small⟩)))

/-! ## Respelled tables -/

/-- Two nodes that differ in their mappings at most. Every mapping of one has its like among those
    of the other, with a table that is spelled in the same or another way. So mappings may be
    reordered and repeated. -/
structure SameTables (n n' : Node) : Prop where
  rest : n' = { n with mappings := n'.mappings }
  forth : ∀ m ∈ n.mappings, ∃ m' ∈ n'.mappings, Text.Respelled m.table m'.table
  back : ∀ m' ∈ n'.mappings, ∃ m ∈ n.mappings, Text.Respelled m.table m'.table

theorem SameTables.readsFrom_eq {n n' : Node} (h : SameTables n n') (t : String) :
    readsFrom t n = readsFrom t n' := by
  rw [Bool.eq_iff_iff, readsFrom, readsFrom, List.any_eq_true, List.any_eq_true]
  constructor
  · rintro ⟨m, hm, reads⟩
    obtain ⟨m', hm', spelled⟩ := h.forth m hm
    exact ⟨m', hm', by rwa [← spelled.upper_trim_eq]⟩
  · rintro ⟨m', hm', reads⟩
    obtain ⟨m, hm, spelled⟩ := h.back m' hm'
    exact ⟨m, hm, by rwa [spelled.upper_trim_eq]⟩

theorem SameTables.tablesOf_eq {n n' : Node} (h : SameTables n n') : tablesOf n = tablesOf n' := by
  refine Dict.eq_of_ascending (Dict.sorted_sortedDistinct _) (Dict.sorted_sortedDistinct _) ?_
  intro t
  rw [mem_tablesOf, mem_tablesOf, h.readsFrom_eq]

theorem SameTables.patternInconsistency_eq {p p' n n' : Node} (hp : SameTables p p')
    (h : SameTables n n') (t : String) (share : Binary64) :
    patternInconsistency p t share ⟨n, tablesOf n⟩ =
      patternInconsistency p' t share ⟨n', tablesOf n'⟩ := by
  rw [← h.tablesOf_eq, h.rest, hp.rest]
  rfl

section Related

variable {nodes nodes' : List Node} (same : List.Forall₂ SameTables nodes nodes')
include same

theorem map_eq_of_sameTables {α : Type} {f g : Node → α} (h : ∀ n n', SameTables n n' → f n = g n') :
    nodes.map f = nodes'.map g :=
  (congrFun₂ List.forall₂_eq_eq_eq _ _).mp (List.rel_map h same)

theorem filter_of_sameTables {p p' : Node → Bool} (h : ∀ n n', SameTables n n' → p n = p' n') :
    List.Forall₂ SameTables (nodes.filter p) (nodes'.filter p') :=
  List.rel_filter (fun n n' related => iff_of_eq (congrArg (· = true) (h n n' related))) same

theorem countP_readsFrom_eq (t : String) :
    nodes.countP (readsFrom t) = nodes'.countP (readsFrom t) := by
  rw [List.countP_eq_length_filter, List.countP_eq_length_filter]
  exact (filter_of_sameTables same fun n n' h => h.readsFrom_eq t).length_eq

theorem position?_eq : Forest.position? nodes = Forest.position? nodes' := by
  have known : ∀ (nodes : List Node) (id : String), Forest.position? nodes id =
      ((nodes.map (·.id)).zipIdx.reverse.find? (·.1 == id)).map (·.2) := by
    intro nodes id
    rw [Forest.position?, List.zipIdx_map, ← List.map_reverse, List.find?_map, Option.map_map]
    rfl
  have ids : nodes.map (·.id) = nodes'.map (·.id) :=
    map_eq_of_sameTables same fun n n' h => by rw [h.rest]
  funext id
  rw [known, known, ids]

theorem forall₂_readingChildren (i : Nat) :
    List.Forall₂ SameTables (readingChildren nodes i) (readingChildren nodes' i) := by
  refine filter_of_sameTables same fun n n' h => ?_
  have parent : n'.parentId = n.parentId := by rw [h.rest]
  rw [position?_eq same, readsTable_eq, readsTable_eq, h.tablesOf_eq, parent]

theorem forall₂_zipIdx : ∀ k : Nat,
    List.Forall₂ (fun q q' => SameTables q.1 q'.1 ∧ q.2 = q'.2) (nodes.zipIdx k)
      (nodes'.zipIdx k) := by
  induction same with
  | nil => exact fun _ => .nil
  | cons h _ ih => exact fun k => .cons ⟨h, rfl⟩ (ih (k + 1))

/-- What is reported of the children of one node depends on the tables they read from only. -/
theorem minority_congr {p p' : Node} (hp : SameTables p p') (below : Binary64 → Bool) (i : Nat) :
    minority (Forest.ofNodes nodes) below p i = minority (Forest.ofNodes nodes') below p' i := by
  have children := forall₂_readingChildren same i
  obtain ⟨few, several⟩ := minority_exact nodes below p i
  obtain ⟨few', several'⟩ := minority_exact nodes' below p' i
  rw [← children.length_eq] at few' several'
  rcases Nat.lt_or_ge (readingChildren nodes i).length 2 with bound | bound
  · rw [few bound, few' bound]
  · obtain ⟨t, dominant, found⟩ := several bound
    obtain ⟨t', dominant', found'⟩ := several' bound
    -- the nodes have as many readers before and after
    have counts := fun s => countP_readsFrom_eq children s
    have carried : IsDominant (readingChildren nodes' i) t :=
      ⟨dominant.named, by simpa only [counts] using dominant.used,
        by simpa only [counts] using dominant.most, by simpa only [counts] using dominant.first⟩
    obtain rfl := carried.unique dominant'
    have others : List.Forall₂ SameTables ((readingChildren nodes i).filter (!readsFrom t ·))
        ((readingChildren nodes' i).filter (!readsFrom t ·)) :=
      filter_of_sameTables children fun n n' h => by rw [h.readsFrom_eq]
    rw [found, found', outsiders, outsiders, counts, children.length_eq,
      map_eq_of_sameTables others fun n n' h => hp.patternInconsistency_eq h t _]

theorem patternConsistency_congr (below : Binary64 → Bool) :
    patternConsistency (Forest.ofNodes nodes) below =
      patternConsistency (Forest.ofNodes nodes') below := by
  rw [patternConsistency, patternConsistency, List.flatMap, List.flatMap]
  refine congrArg _ ((congrFun₂ List.forall₂_eq_eq_eq _ _).mp
    (List.rel_map (fun q q' h => ?_) (forall₂_zipIdx same 0)))
  obtain ⟨node, position⟩ := h
  dsimp only
  rw [← position]
  exact minority_congr same node below q.2

end Related

/-- What is reported for a list of nodes is the minority among the children of each node. Children
    that read from no table do not count. If a node has at least two others, their dominant table
    decides: the children that do not read from it are reported if there are any and the share of
    those that do is not below the threshold, by whatever comparison. Reordering and repeating
    mappings and respelling tables changes nothing. -/
theorem patternConsistency_exact (nodes : List Node) (below : Binary64 → Bool) :
    patternConsistency (Forest.ofNodes nodes) below = nodes.zipIdx.flatMap (fun q =>
      minority (Forest.ofNodes nodes) below q.1 q.2) ∧
    (∀ parent i, let children := readingChildren nodes i
      (children.length < 2 → minority (Forest.ofNodes nodes) below parent i = []) ∧
      (2 ≤ children.length → ∃ t, IsDominant children t ∧
        (∀ s, IsDominant children s → s = t) ∧
        minority (Forest.ofNodes nodes) below parent i = outsiders below parent children t)) ∧
    ∀ nodes', List.Forall₂ SameTables nodes nodes' →
      patternConsistency (Forest.ofNodes nodes') below =
        patternConsistency (Forest.ofNodes nodes) below := by
  refine ⟨rfl, fun parent i => ?_, fun nodes' same => (patternConsistency_congr same below).symm⟩
  obtain ⟨few, several⟩ := minority_exact nodes below parent i
  refine ⟨few, fun bound => ?_⟩
  obtain ⟨t, dominant, found⟩ := several bound
  exact ⟨t, dominant, fun s other => other.unique dominant, found⟩

/-- A node that reads from some tables. -/
def tableReader (id : String) (parent : Option String) (tables : List String) : Node :=
  { id := id, hierarchyId := id, projectId := "P", name := id, parentId := parent
    mappings := tables.map fun t => ⟨1, "dw", "", t, "amount", none, none, none, {}⟩ }

theorem sameTables_tableReader {id : String} {parent : Option String} {tables tables' : List String}
    (forth : ∀ t ∈ tables, ∃ t' ∈ tables',
      Text.equalIgnoringAsciiCase (Text.trim t) (Text.trim t') = true)
    (back : ∀ t' ∈ tables', ∃ t ∈ tables,
      Text.equalIgnoringAsciiCase (Text.trim t) (Text.trim t') = true) :
    SameTables (tableReader id parent tables) (tableReader id parent tables') := by
  refine ⟨rfl, ?_, ?_⟩
  · intro m hm
    obtain ⟨t, ht, rfl⟩ := List.mem_map.mp hm
    obtain ⟨t', ht', same⟩ := forth t ht
    exact ⟨_, List.mem_map_of_mem ht', .ofAsciiCase same⟩
  · intro m hm
    obtain ⟨t', ht', rfl⟩ := List.mem_map.mp hm
    obtain ⟨t, ht, same⟩ := back t' ht'
    exact ⟨_, List.mem_map_of_mem ht, .ofAsciiCase same⟩

/-- Three children of which two each read from two tables. -/
def regions : List Node :=
  [tableReader "ALL" none [], tableReader "NORTH" (some "ALL") ["ledger"],
    tableReader "SOUTH" (some "ALL") ["ledger", "invoices"],
    tableReader "WEST" (some "ALL") ["invoices", " "]]

/-- The same children with tables that are reordered, repeated and respelled. -/
def regionsRespelled : List Node :=
  [tableReader "ALL" none [], tableReader "NORTH" (some "ALL") [" Ledger", "LEDGER"],
    tableReader "SOUTH" (some "ALL") ["Invoices", "ledger "],
    tableReader "WEST" (some "ALL") ["", "INVOICES"]]

/-- The shares below one half. -/
def belowHalf (share : Binary64) : Bool :=
  share < Binary64.ofRatio 1 2

theorem patternConsistency_exact_regions :
    2 ≤ (readingChildren regions 0).length ∧
      (∃ t, IsDominant (readingChildren regions 0) t ∧
        (outsiders belowHalf (tableReader "ALL" none []) (readingChildren regions 0) t).map (·.node.map (·.name)) = [some "NORTH"]) ∧
      List.Forall₂ SameTables regions regionsRespelled ∧
      patternConsistency (Forest.ofNodes regionsRespelled) belowHalf =
        patternConsistency (Forest.ofNodes regions) belowHalf := by
  have same : List.Forall₂ SameTables regions regionsRespelled :=
    .cons (sameTables_tableReader (by decide) (by decide)) <|
      .cons (sameTables_tableReader (by decide +kernel) (by decide +kernel)) <|
      .cons (sameTables_tableReader (by decide +kernel) (by decide +kernel)) <|
      .cons (sameTables_tableReader (by decide +kernel) (by decide +kernel)) .nil
  have several : 2 ≤ (readingChildren regions 0).length := by decide +kernel
  obtain ⟨-, each, respelled⟩ := patternConsistency_exact regions belowHalf
  obtain ⟨t, dominant, -, found⟩ := (each (tableReader "ALL" none []) 0).2 several
  refine ⟨several, ⟨t, dominant, ?_⟩, same, respelled _ same⟩
  rw [← found]
  decide +kernel

end Check

end Rollup

import Mathlib.Data.List.Basic
import Mathlib.Tactic.SplitIfs
import Rollup.Proofs.Buckets
import Rollup.Proofs.Inspection
import Rollup.Proofs.Text.Parts

/-!
# Checking a mapping before it is put on a node

A mapping can be checked against the nodes of a project before it is put on one of them. The nodes
that read its target are then looked for among the others, while the inspection of the whole
project collects all targets with the positions that read them. Whether a mapping is blank shows in
its target, and nodes with distinct hierarchy ids can be told apart, so the two agree.

Results:

* `isBlank_of_target_eq`: mappings with the same target are blank together.
* `mem_duplicateMappings`: a duplicate is reported for each target that several nodes read.
* `perm_readers`: the readers of a target once a mapping to it is put on a node.
* `inspectChange_agrees`: the check of one mapping agrees with the inspection.
-/

namespace Rollup

/-- A node with one more mapping. -/
def Node.withMapping (n : Node) (m : SourceMapping) : Node :=
  { n with mappings := n.mappings ++ [m] }

namespace Check

/-! ## Blank targets -/

theorem isAllBlank_of_upper_trim_eq {s t : String}
    (same : Text.upper (Text.trim s) = Text.upper (Text.trim t)) :
    Text.isAllBlank s = Text.isAllBlank t := by
  rw [Bool.eq_iff_iff, Text.isAllBlank_iff_upper_trim, Text.isAllBlank_iff_upper_trim, same]

/-- Mappings with the same target are blank together. -/
theorem isBlank_of_target_eq {a b : SourceMapping} (same : a.target = b.target) :
    a.isBlank = b.isBlank := by
  simp only [SourceMapping.target, Target.mk.injEq] at same
  obtain ⟨-, table, column⟩ := same
  rw [SourceMapping.isBlank, SourceMapping.isBlank, isAllBlank_of_upper_trim_eq table,
    isAllBlank_of_upper_trim_eq column]

/-! ## Readers -/

/-- Whether a node has a mapping to a target that is not blank. -/
def reads (t : Target) (n : Node) : Bool :=
  n.mappings.any fun m => !m.isBlank && m.target == t

/-- The nodes that read a target. -/
def readers (nodes : List Node) (t : Target) : List Node :=
  nodes.filter (reads t)

/-- The targets that are read, with the positions of the nodes that read them. -/
def uses (nodes : List Node) : List (Target × Nat) :=
  nodes.zipIdx.flatMap fun q =>
    (q.1.mappings.filter (!·.isBlank)).map fun m => (m.target, q.2)

theorem mem_targetOwners {nodes : List Node} {t : Target} {positions : List Nat} :
    (t, positions) ∈ targetOwners (Forest.ofNodes nodes) ↔ t ∈ (uses nodes).map (·.1) ∧
      positions = distinct (((uses nodes).filter fun u => u.1 = t).map (·.2)) := by
  have eq : targetOwners (Forest.ofNodes nodes) = stableSort (fun a b => targetLe a.1 b.1)
    ((buckets (uses nodes)).map fun b => (b.1, distinct b.2)) := rfl
  rw [eq, mem_stableSort, buckets_eq, List.map_map, List.mem_map]
  constructor
  · rintro ⟨k, mem, same⟩
    cases same
    exact ⟨mem_distinct.mp mem, rfl⟩
  · rintro ⟨mem, rfl⟩
    exact ⟨t, mem_distinct.mpr mem, rfl⟩

/-- The distinct positions of a target, as they are collected, are those of its readers. -/
theorem distinct_uses (nodes : List Node) (t : Target) :
    distinct (((uses nodes).filter fun u => u.1 = t).map (·.2)) =
      (nodes.zipIdx.filter fun q => reads t q.1).map (·.2) := by
  -- a node gives as many positions as it has mappings to the target
  have runs : ((uses nodes).filter fun u => u.1 = t).map (·.2) = nodes.zipIdx.flatMap fun q =>
      List.replicate (q.1.mappings.countP fun m => !m.isBlank && m.target == t) q.2 := by
    rw [uses, List.filter_flatMap, List.map_flatMap]
    refine List.flatMap_congr fun q _ => ?_
    rw [List.filter_map, List.map_map, List.filter_filter, List.countP_eq_length_filter,
      ← List.map_const']
    simp only [Function.comp_def, beq_eq_decide, Bool.and_comm]
  have positions : (nodes.zipIdx.map (·.2)).Nodup := by
    rw [List.zipIdx_map_snd]
    exact List.nodup_range'
  rw [runs, distinct_flatMap_replicate _ _ _ positions]
  refine congrArg _ (List.filter_congr fun q _ => ?_)
  rw [Bool.eq_iff_iff, decide_eq_true_eq, ← Nat.pos_iff_ne_zero, List.countP_pos_iff, reads,
    List.any_eq_true]

/-- The nodes at these positions are the readers. -/
theorem filterMap_positions (nodes : List Node) (t : Target) :
    (distinct (((uses nodes).filter fun u => u.1 = t).map (·.2))).filterMap (nodes[·]?) =
      readers nodes t := by
  rw [distinct_uses, filterMap_getElem?_filter, readers]

theorem mem_uses_of_readers {nodes : List Node} {t : Target} {n : Node}
    (h : n ∈ readers nodes t) : t ∈ (uses nodes).map (·.1) := by
  obtain ⟨hn, reads⟩ := List.mem_filter.mp h
  obtain ⟨m, hm, reads⟩ := List.any_eq_true.mp reads
  rw [Bool.and_eq_true, beq_iff_eq] at reads
  obtain ⟨i, hi⟩ := List.getElem?_of_mem hn
  refine List.mem_map.mpr ⟨(m.target, i), List.mem_flatMap.mpr ⟨(n, i), ?_, ?_⟩, reads.2⟩
  · exact List.mem_zipIdx_iff_getElem?.mpr hi
  · exact List.mem_map_of_mem (List.mem_filter.mpr ⟨hm, reads.1⟩)

/-- A finding that names the nodes of a list as those that read a target; the first one is pointed
    at. -/
def NamesReaders (f : Finding) (t : Target) (owners : List Node) : Prop :=
  ∃ first rest, owners = first :: rest ∧ f = duplicateMapping first t (owners.map (·.name))

theorem NamesReaders.kind {f : Finding} {t : Target} {owners : List Node}
    (h : NamesReaders f t owners) : f.kind = .duplicateMapping := by
  obtain ⟨first, rest, -, rfl⟩ := h
  rfl

/-- A duplicate is reported for each target that several nodes read, and names them all. -/
theorem mem_duplicateMappings {nodes : List Node} {f : Finding} :
    f ∈ duplicateMappings (Forest.ofNodes nodes) ↔
      ∃ t, 2 ≤ (readers nodes t).length ∧ NamesReaders f t (readers nodes t) := by
  rw [duplicateMappings, List.mem_filterMap]
  constructor
  · rintro ⟨⟨t, positions⟩, owned, found⟩
    obtain ⟨-, rfl⟩ := mem_targetOwners.mp owned
    refine ⟨t, ?_⟩
    dsimp only [Forest.ofNodes] at found
    rw [filterMap_positions] at found
    split at found
    · rename_i first second rest several
      cases found
      rw [several]
      exact ⟨by simp, first, second :: rest, rfl, rfl⟩
    · cases found
  · rintro ⟨t, several, first, rest, owners, rfl⟩
    have mem : first ∈ readers nodes t := by rw [owners]; exact List.mem_cons_self
    refine ⟨(t, _), mem_targetOwners.mpr ⟨mem_uses_of_readers mem, rfl⟩, ?_⟩
    dsimp only [Forest.ofNodes]
    rw [filterMap_positions, owners]
    rw [owners] at several
    cases rest with
    | nil => simp at several
    | cons second rest => rfl

/-! ## One more mapping -/

section Candidate

variable {nodes : List Node} {n : Node} {c : SourceMapping}

/-- The nodes of a list once a mapping is put on the one with a hierarchy id. -/
def withMapping (nodes : List Node) (hierarchyId : String) (c : SourceMapping) : List Node :=
  nodes.map fun m => if m.hierarchyId = hierarchyId then m.withMapping c else m

/-- The nodes but one that read the target of a mapping. -/
def otherReaders (nodes : List Node) (n : Node) (c : SourceMapping) : List Node :=
  nodes.filter fun m => m.hierarchyId ≠ n.hierarchyId && m.mappings.any (·.target == c.target)

/-- A mapping that is not blank makes its node read its target. -/
theorem reads_withMapping (filled : c.isBlank = false) (n : Node) :
    reads c.target (n.withMapping c) = true := by
  simp [reads, Node.withMapping, filled]

/-- A mapping with the target of one that is not blank is not blank either. -/
theorem any_target_eq (filled : c.isBlank = false) (m : Node) :
    (m.mappings.any (·.target == c.target)) = reads c.target m := by
  rw [Bool.eq_iff_iff, reads, List.any_eq_true, List.any_eq_true]
  refine exists_congr fun x => and_congr_right fun _ => ?_
  rw [Bool.and_eq_true, beq_iff_eq, Bool.not_eq_true']
  constructor
  · exact fun same => ⟨(isBlank_of_target_eq same).trans filled, same⟩
  · exact And.right

/-- A mapping that is put on no node of a list leaves it as it is. -/
theorem withMapping_of_other {hierarchyId : String}
    (other : ∀ m ∈ nodes, m.hierarchyId ≠ hierarchyId) : withMapping nodes hierarchyId c = nodes := by
  refine (List.map_congr_left fun m hm => ?_).trans (List.map_id nodes)
  exact if_neg (other m hm)

/-- Where a node does not occur, all readers are others. -/
theorem otherReaders_of_other (filled : c.isBlank = false)
    (other : ∀ m ∈ nodes, m.hierarchyId ≠ n.hierarchyId) :
    otherReaders nodes n c = readers nodes c.target := by
  refine List.filter_congr fun m hm => ?_
  rw [decide_eq_true (other m hm), Bool.true_and, any_target_eq filled]

/-- With a mapping put on a node, its target is read by this node and by the others that did. -/
theorem perm_readers (distinct : (nodes.map (·.hierarchyId)).Nodup) (mem : n ∈ nodes)
    (filled : c.isBlank = false) :
    (n.withMapping c :: otherReaders nodes n c).Perm
      (readers (withMapping nodes n.hierarchyId c) c.target) := by
  obtain ⟨before, after, rfl⟩ := List.append_of_mem mem
  rw [List.map_append, List.map_cons, List.nodup_middle, List.nodup_cons,
    ← List.map_append] at distinct
  have other : ∀ m ∈ before ++ after, m.hierarchyId ≠ n.hierarchyId := fun m hm same =>
    distinct.1 (same ▸ List.mem_map_of_mem hm)
  have others : otherReaders (before ++ n :: after) n c = readers (before ++ after) c.target := by
    rw [← otherReaders_of_other filled other]
    simp [otherReaders]
  have put : withMapping (before ++ n :: after) n.hierarchyId c =
      before ++ n.withMapping c :: after := by
    rw [withMapping, List.map_append, List.map_cons, if_pos rfl]
    exact congrArg₂ (fun l r => l ++ n.withMapping c :: r)
      (withMapping_of_other fun m hm => other m (List.mem_append_left after hm))
      (withMapping_of_other fun m hm => other m (List.mem_append_right before hm))
  rw [others, put, readers, readers, List.filter_append, List.filter_append, List.filter_cons,
    if_pos (reads_withMapping filled n)]
  exact List.perm_middle.symm

theorem mem_readers_withMapping (filled : c.isBlank = false) (mem : n ∈ nodes) :
    n.withMapping c ∈ readers (withMapping nodes n.hierarchyId c) c.target :=
  List.mem_filter.mpr ⟨List.mem_map.mpr ⟨n, mem, if_pos rfl⟩, reads_withMapping filled n⟩

/-- The target of a mapping that is put on a node has several readers if others did read it. -/
theorem two_le_readers_iff (distinct : (nodes.map (·.hierarchyId)).Nodup) (mem : n ∈ nodes)
    (filled : c.isBlank = false) :
    2 ≤ (readers (withMapping nodes n.hierarchyId c) c.target).length ↔
      otherReaders nodes n c ≠ [] := by
  rw [← (perm_readers distinct mem filled).length_eq, List.length_cons, ← List.length_pos_iff]
  omega

/-- The check of one mapping names its node and the others that read the target. -/
theorem candidateDuplicate?_eq_some_iff {f : Finding} :
    candidateDuplicate? n c nodes = some f ↔ c.isBlank = false ∧ otherReaders nodes n c ≠ [] ∧
      NamesReaders f c.target (n.withMapping c :: otherReaders nodes n c) := by
  have eq : candidateDuplicate? n c nodes =
      if c.isBlank || (otherReaders nodes n c).isEmpty then none
      else some (duplicateMapping n c.target
        (n.name :: (otherReaders nodes n c).map (·.name))) := rfl
  rw [eq, Option.ite_none_left_eq_some, Bool.or_eq_true, not_or, Bool.not_eq_true,
    List.isEmpty_iff, Option.some.injEq, and_assoc]
  refine and_congr_right fun _ => and_congr_right fun _ => ?_
  constructor
  · rintro rfl
    exact ⟨_, _, rfl, rfl⟩
  · rintro ⟨first, rest, owners, rfl⟩
    cases owners
    rfl

end Candidate

/-- A duplicate is reported for one target only. -/
theorem NamesReaders.target_eq {f : Finding} {t t' : Target} {owners owners' : List Node}
    (h : NamesReaders f t owners) (h' : NamesReaders f t' owners') : t = t' := by
  obtain ⟨first, rest, -, rfl⟩ := h
  obtain ⟨first', rest', -, same⟩ := h'
  have details := congrArg Finding.details same
  simp only [duplicateMapping, Value.object.injEq, List.cons.injEq, Prod.mk.injEq, true_and,
    Value.text.injEq] at details
  obtain ⟨database, table, column, -⟩ := details
  cases t
  cases t'
  simp_all

/-! ## Types -/

/-- A finding that points at a node and gives the data of a mapping. -/
def NamesMapping (f : Finding) (n : Node) (m : SourceMapping) : Prop :=
  f.node = some n.ref ∧ ∃ columnType, m.columnType.map Text.trim = some columnType ∧
    f.details = .object [("mappingIndex", .int m.index), ("table", .text m.table),
      ("column", .text m.column), ("columnType", .text columnType)]

theorem namesMapping_of_typeMismatch? {n : Node} {m : SourceMapping} {f : Finding}
    (h : typeMismatch? n m = some f) : f.kind = .typeMismatch ∧ NamesMapping f n m := by
  unfold typeMismatch? at h
  split at h
  · cases h
  · rename_i columnType own
    split_ifs at h
    cases h
    exact ⟨rfl, rfl, columnType, own, rfl⟩

/-- What is found for a mapping depends on the data that the finding gives. -/
theorem typeMismatch?_congr {f : Finding} {n n' : Node} {m m' : SourceMapping}
    (h : NamesMapping f n m) (h' : NamesMapping f n' m') :
    typeMismatch? n m = typeMismatch? n' m' := by
  obtain ⟨node, columnType, own, details⟩ := h
  obtain ⟨node', columnType', own', details'⟩ := h'
  rw [node, Option.some.injEq] at node'
  rw [details] at details'
  simp only [Value.object.injEq, List.cons.injEq, Prod.mk.injEq, true_and, Value.int.injEq,
    Value.text.injEq] at details'
  obtain ⟨index, table, column, rfl, -⟩ := details'
  have name : n.name = n'.name := congrArg NodeRef.name node'
  unfold typeMismatch?
  rw [own, own']
  dsimp only
  rw [node', name, index, table, column]

/-! ## Agreement -/

section Agreement

variable {settings : InspectionSettings} {nodes : List Node} {n : Node} {c : SourceMapping}
  {f : Finding}

theorem mem_inspectChange : f ∈ inspectChange n c nodes ↔
    candidateDuplicate? n c nodes = some f ∨ typeMismatch? n c = some f := by
  rw [inspectChange, bySeverity, mem_stableSort, List.mem_append, Option.mem_toList,
    Option.mem_toList]

theorem mem_inspectChange_duplicate : f ∈ inspectChange n c nodes ∧ f.kind = .duplicateMapping ↔
    candidateDuplicate? n c nodes = some f := by
  rw [mem_inspectChange]
  constructor
  · rintro ⟨found | found, kind⟩
    · exact found
    · rw [(namesMapping_of_typeMismatch? found).1] at kind
      cases kind
  · intro found
    exact ⟨Or.inl found, (candidateDuplicate?_eq_some_iff.mp found).2.2.kind⟩

theorem mem_inspectChange_mismatch : f ∈ inspectChange n c nodes ∧ f.kind = .typeMismatch ↔
    typeMismatch? n c = some f := by
  rw [mem_inspectChange]
  constructor
  · rintro ⟨found | found, kind⟩
    · rw [(candidateDuplicate?_eq_some_iff.mp found).2.2.kind] at kind
      cases kind
    · exact found
  · exact fun found => ⟨Or.inr found, (namesMapping_of_typeMismatch? found).1⟩

/-- The duplicates that the inspection reports: each names the readers of its target, of which there
    are several. -/
theorem mem_inspect_duplicate (enabled : settings.enabled .duplicateMapping = true) :
    f ∈ inspect settings nodes ∧ f.kind = .duplicateMapping ↔
      ∃ t, 2 ≤ (readers nodes t).length ∧ NamesReaders f t (readers nodes t) := by
  rw [mem_inspect_iff, ← mem_duplicateMappings]
  exact and_iff_right enabled

/-- A mismatch is found for a mapping that is put on a node exactly if it is reported afterwards. -/
theorem mem_inspect_mismatch (enabled : settings.enabled .typeMismatch = true) (mem : n ∈ nodes) :
    typeMismatch? n c = some f ↔
      f ∈ inspect settings (withMapping nodes n.hierarchyId c) ∧ f.kind = .typeMismatch ∧
        NamesMapping f n c := by
  rw [← and_assoc, mem_inspect_iff]
  constructor
  · intro found
    have here : n.withMapping c ∈ withMapping nodes n.hierarchyId c :=
      List.mem_map.mpr ⟨n, mem, if_pos rfl⟩
    have own : c ∈ (n.withMapping c).mappings :=
      List.mem_append_right _ (List.mem_singleton_self c)
    exact ⟨⟨enabled, List.mem_flatMap.mpr ⟨_, here, List.mem_filterMap.mpr ⟨c, own, found⟩⟩⟩,
      (namesMapping_of_typeMismatch? found).2⟩
  · rintro ⟨⟨-, reported⟩, names⟩
    obtain ⟨m, -, reported⟩ := List.mem_flatMap.mp reported
    obtain ⟨x, -, found⟩ := List.mem_filterMap.mp reported
    rw [typeMismatch?_congr names (namesMapping_of_typeMismatch? found).2]
    exact found

end Agreement

/-- Checking a mapping before it is put on a node agrees with inspecting all nodes afterwards. A
    duplicate is found exactly if the mapping is not blank and one is reported for its target, which
    the node then reads; the two name the same nodes. A mismatch of types is found exactly if it is
    reported for the node and the mapping. -/
theorem inspectChange_agrees (settings : InspectionSettings)
    (duplicates : settings.enabled .duplicateMapping = true)
    (types : settings.enabled .typeMismatch = true) (nodes : List Node)
    (distinct : (nodes.map (·.hierarchyId)).Nodup) (n : Node) (mem : n ∈ nodes)
    (c : SourceMapping) :
    let after := withMapping nodes n.hierarchyId c
    (∀ g ∈ inspect settings after, g.kind = .duplicateMapping →
      ∃ t, NamesReaders g t (readers after t)) ∧
    ((∃ f ∈ inspectChange n c nodes, f.kind = .duplicateMapping) ↔
      c.isBlank = false ∧ ∃ g ∈ inspect settings after,
        NamesReaders g c.target (readers after c.target) ∧
          n.withMapping c ∈ readers after c.target) ∧
    (∀ f ∈ inspectChange n c nodes, f.kind = .duplicateMapping →
      ∃ owners, NamesReaders f c.target owners ∧ owners.Perm (readers after c.target)) ∧
    ∀ f, f ∈ inspectChange n c nodes ∧ f.kind = .typeMismatch ↔
      f ∈ inspect settings after ∧ f.kind = .typeMismatch ∧ NamesMapping f n c := by
  intro after
  refine ⟨?_, ⟨?_, ?_⟩, ?_, ?_⟩
  · intro g hg kind
    obtain ⟨t, -, names⟩ := (mem_inspect_duplicate duplicates).mp ⟨hg, kind⟩
    exact ⟨t, names⟩
  · rintro ⟨f, hf, kind⟩
    obtain ⟨filled, others, -⟩ := candidateDuplicate?_eq_some_iff.mp
      (mem_inspectChange_duplicate.mp ⟨hf, kind⟩)
    have several := (two_le_readers_iff distinct mem filled).mpr others
    have reads := mem_readers_withMapping filled mem
    obtain ⟨first, rest, owners⟩ := List.exists_cons_of_ne_nil (List.ne_nil_of_mem reads)
    have reported := (mem_inspect_duplicate duplicates).mpr
      ⟨c.target, several, first, rest, owners, rfl⟩
    exact ⟨filled, _, reported.1, ⟨first, rest, owners, rfl⟩, reads⟩
  · rintro ⟨filled, g, hg, names, -⟩
    obtain ⟨t, several, names'⟩ := (mem_inspect_duplicate duplicates).mp ⟨hg, names.kind⟩
    rw [names'.target_eq names] at several
    have others := (two_le_readers_iff distinct mem filled).mp several
    exact ⟨_, mem_inspectChange_duplicate.mpr
      (candidateDuplicate?_eq_some_iff.mpr ⟨filled, others, _, _, rfl, rfl⟩)⟩
  · intro f hf kind
    obtain ⟨filled, -, names⟩ := candidateDuplicate?_eq_some_iff.mp
      (mem_inspectChange_duplicate.mp ⟨hf, kind⟩)
    exact ⟨_, names, perm_readers distinct mem filled⟩
  · intro f
    rw [mem_inspectChange_mismatch]
    exact mem_inspect_mismatch types mem

/-- Two nodes, of which the first one reads a column of amounts. -/
def salesNodes : List Node :=
  [{ hierarchyId := "NET", projectId := "P", name := "Net sales"
     mappings := [⟨1, "dw", "", "facts", "amount", none, none, none, {}⟩] },
    { hierarchyId := "GROSS", projectId := "P", name := "Gross sales" }]

/-- A mapping to the same column, spelled otherwise, with a type that holds no numbers. -/
def amountColumn : SourceMapping :=
  { index := 1, database := "DW ", schema := "", table := " Facts", column := "AMOUNT"
    columnType := some "VARCHAR" }

theorem inspectChange_agrees_amountColumn : ∃ n ∈ salesNodes, n.name = "Gross sales" ∧
    ∃ f ∈ inspectChange n amountColumn salesNodes,
      ∃ g ∈ inspect {} (withMapping salesNodes "GROSS" amountColumn),
        ∃ owners, NamesReaders f amountColumn.target owners ∧
          NamesReaders g amountColumn.target
            (readers (withMapping salesNodes "GROSS" amountColumn) amountColumn.target) ∧
          owners.Perm
            (readers (withMapping salesNodes "GROSS" amountColumn) amountColumn.target) ∧
          (readers (withMapping salesNodes "GROSS" amountColumn) amountColumn.target).map
            (·.name) = ["Net sales", "Gross sales"] := by
  have kinds : ((salesNodes[1]?).map fun n => (n.name, n.hierarchyId,
      (inspectChange n amountColumn salesNodes).map (·.kind))) =
      some ("Gross sales", "GROSS", [.duplicateMapping, .typeMismatch]) := by
    decide +kernel
  obtain ⟨n, at1, shown⟩ := Option.map_eq_some_iff.mp kinds
  simp only [Prod.mk.injEq] at shown
  obtain ⟨name, key, kinds⟩ := shown
  have mem := List.mem_of_getElem? at1
  obtain ⟨f, hf, kind⟩ : ∃ f ∈ inspectChange n amountColumn salesNodes,
      f.kind = .duplicateMapping := by
    refine List.mem_map.mp ?_
    rw [kinds]
    exact List.mem_cons_self
  obtain ⟨-, iff, owners, -⟩ := inspectChange_agrees {} (by decide) (by decide) salesNodes
    (by decide) n mem amountColumn
  rw [key] at iff owners
  obtain ⟨-, g, hg, names, -⟩ := iff.mp ⟨f, hf, kind⟩
  obtain ⟨owners, names', perm⟩ := owners f hf kind
  exact ⟨n, mem, name, f, hf, g, hg, owners, names', names, perm, by decide +kernel⟩

end Check

end Rollup

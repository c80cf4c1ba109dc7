import Mathlib.Data.List.Basic
import Rollup.Proofs.Import.Lookup
import Rollup.Proofs.Service.Identity
import Rollup.Proofs.Service.Links

/-!
# The children of skipped groups

A group that is skipped because its hierarchy id is stored still takes children: rows that name it
as their parent are linked to the stored node. A group that is skipped because an earlier group has
its id takes none, although a node with its id is there after the import.

Results:

* `proposal_of_names`: the parent that is proposed for a node that names a skipped group.
* `parentId_importTable`: the parents that an import stores.
* `parentId_of_skipped`: the parent that is stored for a node that names a skipped group.
-/

namespace Rollup

/-- A link to a position without a link closes no cycle. -/
theorem Ancestry.not_closes_of_root {f : Nat → Option Nat} {i x : Nat} (link : f i = some x)
    (root : f x = none) : ¬ Closes f i := by
  rintro ⟨cycle, -⟩
  obtain ⟨y, above, last⟩ := Relation.TransGen.tail'_iff.mp cycle
  rw [Link, link, Option.some.injEq] at last
  subst last
  rcases Relation.ReflTransGen.cases_tail above with rfl | ⟨z, -, up⟩
  · rw [root] at link
    cases link
  · rw [Link, root] at up
    cases up

namespace Batch

/-! ## Where a row looks for its parent -/

/-- The row that leads the group of an entry. -/
def leader? (groups : List RowGroup) (e : BatchEntry) : Option HierarchyRow :=
  (e.group.bind (groups[·]?)).map (·.leader)

/-- The parent that a dialect proposes for an entry with the given leading row. -/
def parentFrom (b : Batch) (d : Dialect) (i : Nat) (e : BatchEntry)
    (leader : Option HierarchyRow) : Option Nat :=
  match d with
  | .standard => (b.standardParent i e leader).1
  | .legacy => (b.legacyParent i e leader).1

/-- The parent that a dialect proposes for a path that leads nowhere. -/
def parentBesides (b : Batch) (d : Dialect) (i : Nat) (path : List String) : Option Nat :=
  match d with
  | .standard => none
  | .legacy => path.getLast?.bind fun name => except i (b.byDepthName? path.length name)

/-- A leading row that names no parent, and does not say that it is a root where that counts. -/
def Silent (d : Dialect) (leader : Option HierarchyRow) : Prop :=
  ∀ row ∈ leader, row.parentXrefKey = none ∧
    (d = .standard → row.parentHierarchyId = none ∧ row.isRoot ≠ some true)

section Parents

variable {b : Batch} {d : Dialect} {i : Nat} {e : BatchEntry}

theorem proposedParent_fst (b : Batch) (d : Dialect) (groups : List RowGroup) (i : Nat)
    (e : BatchEntry) : (b.proposedParent d groups i e).1 = b.parentFrom d i e (leader? groups e) := by
  cases d <;> rfl

/-- A row looks for the key of its parent first. -/
theorem parentFrom_key {row : HierarchyRow} {k : Int} (key : row.parentXrefKey = some k) :
    b.parentFrom d i e (some row) = (except i (b.byXref? k)).or
      (b.parentFrom d i e (some { row with parentXrefKey := none })) := by
  have named : b.byParentXref? i row = except i (b.byXref? k) := by
    rw [byParentXref?, key, Option.bind_some]
  have unnamed : b.byParentXref? i { row with parentXrefKey := none } = none := rfl
  have same : b.byParentId? i { row with parentXrefKey := none } = b.byParentId? i row := rfl
  cases d with
  | standard =>
    rw [parentFrom, parentFrom, standardParent_fst, standardParent_fst, named, unnamed, same,
      Option.none_or, Option.or_assoc]
  | legacy =>
    rw [parentFrom, parentFrom, legacyParent_fst, legacyParent_fst, named, unnamed, Option.none_or]

/-- A row that names no parent looks for it by its path. -/
theorem parentFrom_silent {leader : Option HierarchyRow} {path : List String}
    (silent : Silent d leader) (above : LevelPath.parent? e.path = some path) :
    b.parentFrom d i e leader = (except i (b.byPath? path)).or (b.parentBesides d i path) := by
  have unnamed : ∀ row ∈ leader, b.byParentXref? i row = none := by
    intro row hrow
    rw [byParentXref?, (silent row hrow).1, Option.bind_none]
  cases d with
  | standard =>
    have path : (b.standardParent i e leader).1 = except i (b.byPath? path) := by
      cases leader with
      | none => simp only [standardParent, above, Option.bind_some]
      | some row =>
        obtain ⟨id, root⟩ := (silent row rfl).2 rfl
        simp only [standardParent, unnamed row rfl, byParentId?, id, Option.bind_none, above,
          Option.bind_some, if_neg root]
    rw [parentFrom, path, parentBesides, Option.or_none]
  | legacy =>
    cases leader with
    | none => simp only [parentFrom, legacyParent, legacyPathParent, above, parentBesides]
    | some row =>
      simp only [parentFrom, legacyParent, unnamed row rfl, legacyPathParent, above, parentBesides]

theorem except_of_lt {o : Option Nat} (below : ∀ q, o = some q → q < i) : except i o = o := by
  cases o with
  | none => rfl
  | some q =>
    have := below q rfl
    exact if_pos (by simp; omega)

end Parents

end Batch

/-! ## Nodes that name a skipped group -/

namespace ImportPlan

/-- An entry names the group at a position as its parent: by a key that only this group has, or, if
    its row names no parent, by a path that only this group has. The last argument is the parent
    that is proposed if the group cannot be found: a stored node with that key or path, or what the
    dialect tries next. -/
inductive NamesParent (p : ImportPlan) (b : Batch) (i : Nat) (e : BatchEntry) (gi : Nat) :
    Option Nat → Prop where
  | key {row : HierarchyRow} {k : Int} (leader : Batch.leader? p.groups e = some row)
      (key : row.parentXrefKey = some k) (only : p.Only gi fun g => k ∈ g.xrefs) :
      NamesParent p b i e gi ((b.stored.xref? k).or
        (b.parentFrom p.dialect i e (some { row with parentXrefKey := none })))
  | path {path : List String} (silent : Batch.Silent p.dialect (Batch.leader? p.groups e))
      (above : LevelPath.parent? e.path = some path) (only : p.Only gi fun g => g.path = path) :
      NamesParent p b i e gi ((b.stored.path? path).or (b.parentBesides p.dialect i path))

section Names

variable {p : ImportPlan} {stored : List Node} {b : Batch} {i gi : Nat} {e : BatchEntry}
  {other : Option Nat}

theorem lt_of_existing {x : Nat}
    (ex : (p.existing (Batch.ofStored stored)).lookup gi = some x) : x < stored.length := by
  rw [lookup_existing] at ex
  obtain ⟨g, -, found⟩ := Option.bind_eq_some_iff.mp ex
  rw [Batch.stored_ofStored] at found
  split at found
  · cases found
  · exact (Batch.within_storedKeys stored).id? found

/-- The parent that is proposed for a node that names a skipped group: the stored node of the group,
    or what is proposed if the group cannot be found. -/
theorem proposal_of_names (distinct : (stored.map (·.hierarchyId)).Nodup)
    (keys : b.Agrees (p.filled stored)) (new : stored.length ≤ i)
    (gaps : ∀ g ∈ p.groups, g.path ∉ p.placeholders.map (·.path))
    (skipped : p.isNew (Batch.ofStored stored) gi = false) (here : b.entries[i]? = some e)
    (names : p.NamesParent b i e gi other) :
    b.proposal p.dialect p.groups i =
      ((p.existing (Batch.ofStored stored)).lookup gi).or other := by
  have storedKeys : b.stored = Batch.storedKeys stored 0 := by
    obtain ⟨added, -, drafted⟩ := p.drafted_filled distinct
    rw [keys.stored, drafted.stored_keys]
  rw [Batch.proposal, here, Option.bind_some, Batch.proposedParent_fst]
  cases names with
  | @key row k leader key only =>
    have found : b.byXref? k = ((p.existing (Batch.ofStored stored)).lookup gi).or
        (b.stored.xref? k) := by
      rw [Batch.byXref?, keys.fresh, keys.stored]
      exact byXref?_of_skipped only skipped
    rw [leader, Batch.parentFrom_key key, found, Batch.except_of_lt, Option.or_assoc]
    intro q hq
    rcases Option.or_eq_some_iff.mp hq with ex | ⟨-, found⟩
    · exact Nat.lt_of_lt_of_le (lt_of_existing ex) new
    · rw [storedKeys] at found
      exact Nat.lt_of_lt_of_le ((Batch.within_storedKeys stored).xref? found) new
  | @path path silent above only =>
    have filled : path ≠ [] := by
      rintro rfl
      unfold LevelPath.parent? at above
      split at above
      · have short := congrArg List.length (Option.some.inj above)
        rw [List.length_dropLast, List.length_nil] at short
        omega
      · cases above
    have gap : path ∉ p.placeholders.map (·.path) := by
      obtain ⟨g, hg, rfl⟩ := only.holder
      exact gaps g (List.mem_of_getElem? hg)
    have found : b.byPath? path = ((p.existing (Batch.ofStored stored)).lookup gi).or
        (b.stored.path? path) := by
      rw [Batch.byPath?, keys.fresh, keys.stored]
      exact byPath?_of_skipped filled only gap skipped
    rw [Batch.parentFrom_silent silent above, found, Batch.except_of_lt, Option.or_assoc]
    intro q hq
    rcases Option.or_eq_some_iff.mp hq with ex | ⟨-, found⟩
    · exact Nat.lt_of_lt_of_le (lt_of_existing ex) new
    · rw [storedKeys] at found
      exact Nat.lt_of_lt_of_le ((Batch.within_storedKeys stored).path? found) new

/-- No placeholder stands for the path of a group. -/
theorem path_notMem_placeholders {project : String} {d : Dialect} {w : Window}
    {rs : List HierarchyRow} :
    let p := (ofRows project d w rs).1
    ∀ g ∈ p.groups, g.path ∉ p.placeholders.map (·.path) := by
  intro p g hg mem
  cases d with
  | standard => cases mem
  | legacy => exact (RowGroup.Legacy.mem_map_path_missingAncestors.mp mem).1 (List.mem_map_of_mem hg)

end Names

end ImportPlan

/-! ## Imports -/

namespace Service

open Ancestry Import

/-- An import proposes parents for the nodes that it adds. -/
theorem proposals_of_new {s : Store} (wf : s.WellFormed) {project : String} {table : Table}
    {d : Dialect} {i : Nat} {e : BatchEntry} :
    let plan := importPlan s project d table
    let b := (plan.assemble (s.nodesOf project)).1
    (s.nodesOf project).length ≤ i → b.entries[i]? = some e →
      b.proposals d plan.groups i = b.proposal d plan.groups i := by
  intro plan b new here
  obtain ⟨added, -, drafted⟩ := plan.drafted_filled (wf.keys project)
  have agrees := plan.agrees_assemble (wf.keys project)
  have proposes : b.Proposes d plan.groups (s.nodesOf project).length
      (plan.drafts (s.nodesOf project) added).length :=
    ImportPlan.proposes_assemble (wf.keys project) drafted
  have bound : i < b.size := (List.getElem?_eq_some_iff.mp here).1
  rw [agrees.size_eq, drafted.size_eq] at bound
  exact Batch.proposals_of_mem (by rw [proposes.positions, List.mem_range'_1]; exact ⟨new, bound⟩)

/-- The parent that an import proposes for a node that names a skipped group. -/
theorem proposals_of_names {s : Store} (wf : s.WellFormed) {project : String} {table : Table}
    {d : Dialect} {gi i : Nat} {e : BatchEntry} {other : Option Nat} :
    let plan := importPlan s project d table
    let b := (plan.assemble (s.nodesOf project)).1
    plan.isNew (Batch.ofStored (s.nodesOf project)) gi = false →
      (s.nodesOf project).length ≤ i → b.entries[i]? = some e → plan.NamesParent b i e gi other →
      b.proposals d plan.groups i =
        ((plan.existing (Batch.ofStored (s.nodesOf project))).lookup gi).or other := by
  intro plan b skipped new here names
  rw [proposals_of_new wf new here]
  exact ImportPlan.proposal_of_names (wf.keys project) (plan.agrees_assemble (wf.keys project)) new
    ImportPlan.path_notMem_placeholders skipped here names

section Imports

variable {s t : Store} (wf : s.WellFormed) {project : String} {table : Table}
  {dialect : Option Dialect} {report : ImportReport}
  (done : importTable s project table dialect = .ok (t, report))

include wf done

/-- The parents that an import stores for the nodes that it adds: the proposed ones, unless they
    close a cycle. -/
theorem parentId_importTable {i : Nat} {n : Node} (new : (s.nodesOf project).length ≤ i)
    (here : (t.nodesOf project)[i]? = some n) :
    let plan := importPlan s project report.dialect table
    let f := (plan.assemble (s.nodesOf project)).1.proposals report.dialect plan.groups
    (Closes f i ∧ n.parentId = none) ∨
      ¬ Closes f i ∧ n.parentId = (f i).bind fun q => ((t.nodesOf project)[q]?).map (·.id) := by
  intro plan f
  obtain ⟨added, ids, made, all, rfl, -⟩ := importTable_outcome wf done
  have after := all.nodesOf_after project
  rw [if_pos rfl] at after
  rw [after] at here ⊢
  have proposes : (plan.assemble (s.nodesOf project)).1.Proposes report.dialect plan.groups
      (s.nodesOf project).length (plan.drafts (s.nodesOf project) added).length :=
    ImportPlan.proposes_assemble (wf.keys project) all.outcome.drafted
  have links : plan.links (s.nodesOf project) =
      (plan.assemble (s.nodesOf project)).1.links report.dialect plan.groups :=
    (Batch.links_congr (plan.agrees_assemble (wf.keys project)) _ _).symm
  obtain ⟨k, rfl⟩ := Nat.exists_eq_add_of_le' new
  have parent := all.parentId_after here
  rw [links, proposes.links_eq] at parent
  split at parent
  · exact Or.inl ⟨‹_›, parent⟩
  · exact Or.inr ⟨‹_›, parent⟩

/-- No parent is proposed for a stored node. -/
theorem proposals_of_stored {x : Nat} (old : x < (s.nodesOf project).length) :
    let plan := importPlan s project report.dialect table
    (plan.assemble (s.nodesOf project)).1.proposals report.dialect plan.groups x = none := by
  intro plan
  obtain ⟨added, ids, made, all, rfl, -⟩ := importTable_outcome wf done
  have proposes : (plan.assemble (s.nodesOf project)).1.Proposes report.dialect plan.groups
      (s.nodesOf project).length (plan.drafts (s.nodesOf project) added).length :=
    ImportPlan.proposes_assemble (wf.keys project) all.outcome.drafted
  cases link : (plan.assemble (s.nodesOf project)).1.proposals report.dialect plan.groups x with
  | none => rfl
  | some q =>
    have := proposes.lt_of_proposals link
    omega

/-- A stored node stays at its position, and keeps its place. -/
theorem exists_of_stored {x : Nat} {old : Node} (here : (s.nodesOf project)[x]? = some old) :
    ∃ m, (t.nodesOf project)[x]? = some m ∧ m.place = old.place := by
  obtain ⟨added, ids, made, all, rfl, -⟩ := importTable_outcome wf done
  have after := all.nodesOf_after project
  rw [if_pos rfl] at after
  refine ⟨afterImport s project made old, ?_, place_afterImport old⟩
  rw [after, List.getElem?_map, List.getElem?_append_left (List.getElem?_eq_some_iff.mp here).1,
    here, Option.map_some]

/-- The node of a stored group stays at its position. -/
theorem exists_of_existing {gi x : Nat} {g : RowGroup}
    (hg : (importPlan s project report.dialect table).groups[gi]? = some g)
    (ex : ((importPlan s project report.dialect table).existing
      (Batch.ofStored (s.nodesOf project))).lookup gi = some x) :
    ∃ m, (t.nodesOf project)[x]? = some m ∧ m.hierarchyId = g.hierarchyId := by
  have rep := ImportPlan.isRepeat_of_existing ex
  rw [ImportPlan.lookup_existing, hg, Option.bind_some, rep, if_neg (by simp),
    Batch.stored_ofStored] at ex
  obtain ⟨q, hq, eq⟩ := List.mem_map.mp (mem_of_lookup ex)
  obtain ⟨id, rfl⟩ := Prod.mk.inj eq
  obtain ⟨m, hm, place⟩ := exists_of_stored wf done (List.mem_zipIdx_iff_getElem?.mp hq)
  exact ⟨m, hm, (congrArg Node.Place.hierarchyId place).trans id⟩

end Imports

/-- Where rows that name a skipped group as their parent are linked. If the group is skipped because
    its hierarchy id is stored, they are linked to the stored node. If it is skipped because an
    earlier group has its id, they are linked as if the group were not in the file: the node with its
    id is not found through it. -/
theorem parentId_of_skipped {s t : Store} (h : Reachable s) {project : String} {table : Table}
    {dialect : Option Dialect} {report : ImportReport}
    (done : importTable s project table dialect = .ok (t, report)) :
    let plan := importPlan s project report.dialect table
    let b := (plan.assemble (s.nodesOf project)).1
    ∀ gi g, plan.groups[gi]? = some g → plan.isNew (Batch.ofStored (s.nodesOf project)) gi = false →
      ∃ m ∈ t.nodesOf project, m.hierarchyId = g.hierarchyId ∧
        ∀ i e n other, (s.nodesOf project).length ≤ i → b.entries[i]? = some e →
          (t.nodesOf project)[i]? = some n → plan.NamesParent b i e gi other →
            (plan.isRepeat gi = false → n.parentId = some m.id) ∧
            (plan.isRepeat gi = true →
              b.proposals report.dialect plan.groups i = other ∧
              (Closes (b.proposals report.dialect plan.groups) i ∧ n.parentId = none ∨
                n.parentId = other.bind fun q => ((t.nodesOf project)[q]?).map (·.id))) := by
  intro plan b gi g hg skipped
  have wf := wellFormed_of_reachable h
  cases ex : (plan.existing (Batch.ofStored (s.nodesOf project))).lookup gi with
  | some x =>
    have rep := ImportPlan.isRepeat_of_existing ex
    obtain ⟨m, there, id⟩ := exists_of_existing wf done hg ex
    refine ⟨m, List.mem_of_getElem? there, id, fun i e n other new he here names => ⟨fun _ => ?_, ?_⟩⟩
    · have link := proposals_of_names wf skipped new he names
      rw [ex, Option.some_or] at link
      have root := proposals_of_stored wf done (ImportPlan.lt_of_existing ex)
      rcases parentId_importTable wf done new here with ⟨closes, -⟩ | ⟨-, eq⟩
      · exact absurd closes (not_closes_of_root link root)
      · rw [eq, link, Option.bind_some, there, Option.map_some]
    · intro again
      rw [rep] at again
      cases again
  | none =>
    have rep := ImportPlan.isRepeat_of_skipped skipped ex
    obtain ⟨m, hm, id⟩ := stored_importTable wf done (List.mem_of_getElem? hg)
    refine ⟨m, hm, id, fun i e n other new he here names => ⟨?_, fun _ => ?_⟩⟩
    · intro first
      rw [rep] at first
      cases first
    · have link := proposals_of_names wf skipped new he names
      rw [ex, Option.none_or] at link
      refine ⟨link, ?_⟩
      rcases parentId_importTable wf done new here with closed | ⟨-, eq⟩
      · exact Or.inl closed
      · rw [link] at eq
        exact Or.inr eq

/-- The columns of the tables below. -/
def keyColumns : List String :=
  ["HIERARCHY_NAME", "XREF_KEY", "PARENT_XREF_KEY"]

/-- A node that is stored first. -/
def netRow : Table :=
  { headers := keyColumns, columns := keyColumns
    rows := [⟨1, ["Net Sales", "1", ""]⟩], problems := [] }

/-- A store with that node. -/
def netStore : Store :=
  ((([.initProject "P" "", .importTable "P" netRow (some .standard)] : List Call).foldlM run
    {}).toOption).getD {}

theorem reachable_netStore : Reachable netStore := by
  have built : ((([.initProject "P" "", .importTable "P" netRow (some .standard)] :
      List Call).foldlM run {}).toOption).isSome = true := by
    decide +kernel
  obtain ⟨s, hs⟩ := Option.isSome_iff_exists.mp built
  rw [netStore, hs]
  exact reachable_foldlM .empty _ (ok_of_toOption hs)

/-- A row with the hierarchy id of that node under another name, and a row below it. -/
def onlineRows : Table :=
  { headers := keyColumns, columns := keyColumns
    rows := [⟨1, ["net-sales", "2", ""]⟩, ⟨2, ["Online", "3", "2"]⟩], problems := [] }

theorem parentId_of_skipped_onlineRows : ∃ t report, Reachable netStore ∧
    importTable netStore "P" onlineRows (some .standard) = .ok (t, report) ∧
    ∃ m ∈ t.nodesOf "P", m.hierarchyId = "NET_SALES" ∧
      ∀ n, (t.nodesOf "P")[1]? = some n → n.parentId = some m.id := by
  have ran : (importTable netStore "P" onlineRows (some .standard)).toOption.map
      (·.2.dialect) = some .standard := by
    decide +kernel
  have group : ((importPlan netStore "P" .standard onlineRows).groups[0]?).map
      (·.hierarchyId) = some "NET_SALES" := by
    decide +kernel
  have leader : (((importPlan netStore "P" .standard onlineRows).assemble
      (netStore.nodesOf "P")).1.entries[1]?).bind (fun e => (Batch.leader?
        (importPlan netStore "P" .standard onlineRows).groups e).bind (·.parentXrefKey)) =
      some 2 := by
    decide +kernel
  obtain ⟨⟨t, report⟩, done, dialect⟩ := Option.map_eq_some_iff.mp ran
  have result := parentId_of_skipped reachable_netStore (ok_of_toOption done)
  obtain ⟨g, hg, eq⟩ := Option.map_eq_some_iff.mp group
  dsimp only at dialect
  rw [dialect] at result
  obtain ⟨e, he, leader⟩ := Option.bind_eq_some_iff.mp leader
  obtain ⟨row, hrow, key⟩ := Option.bind_eq_some_iff.mp leader
  obtain ⟨m, hm, id, rest⟩ := result 0 g hg (by decide +kernel)
  refine ⟨t, report, reachable_netStore, ok_of_toOption done, m, hm, id.trans eq, fun n hn => ?_⟩
  exact (rest 1 e n _ (by decide +kernel) he hn (.key hrow key (by decide +kernel))).1
    (by decide +kernel)

/-- All three rows in one file. -/
def salesRows : Table :=
  { headers := keyColumns, columns := keyColumns
    rows := [⟨1, ["Net Sales", "1", ""]⟩, ⟨2, ["net-sales", "2", ""]⟩, ⟨3, ["Online", "3", "2"]⟩]
    problems := [] }

/-- The same row in one file with the node that has its hierarchy id: the row below it is linked to
    no node. -/
theorem parentId_salesRows : ∃ s t report, Reachable s ∧
    importTable s "P" salesRows (some .standard) = .ok (t, report) ∧
    (t.nodesOf "P").map (fun n => (n.hierarchyId, n.parentId)) =
      [("NET_SALES", none), ("ONLINE", none)] ∧
    report.summary.warnings =
      ["row 2: duplicate HIERARCHY_ID 'NET_SALES' in file, row skipped",
       "row 3: PARENT_XREF_KEY 2 of 'Online' not found"] := by
  have created : run {} (.initProject "P" "") = .ok { projects := [⟨"P", "P"⟩] } := rfl
  have shown : (importTable { projects := [⟨"P", "P"⟩] } "P" salesRows (some .standard)).toOption.map
      (fun r => ((r.1.nodesOf "P").map (fun n => (n.hierarchyId, n.parentId)),
        r.2.summary.warnings)) =
      some ([("NET_SALES", none), ("ONLINE", none)],
        ["row 2: duplicate HIERARCHY_ID 'NET_SALES' in file, row skipped",
         "row 3: PARENT_XREF_KEY 2 of 'Online' not found"]) := by
    decide +kernel
  obtain ⟨⟨t, report⟩, done, shown⟩ := Option.map_eq_some_iff.mp shown
  obtain ⟨nodes, warnings⟩ := Prod.mk.inj shown
  exact ⟨_, t, report, .call _ .empty created, ok_of_toOption done, nodes, warnings⟩

end Service

end Rollup

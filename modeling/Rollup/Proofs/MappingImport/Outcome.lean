import Mathlib.Data.List.Basic
import Mathlib.Data.List.Induction
import Mathlib.Data.List.Nodup
import Mathlib.Data.List.Pairwise
import Rollup.Proofs.Dict
import Rollup.Proofs.MappingImport
import Rollup.Proofs.MappingList

/-!
# What an import of mappings does

The nodes whose mappings changed are written back in their places, and nothing else is written. Two
kinds of files have a closed form: the rows of one put ascending mappings on nodes that have none,
the rows of the other are held already.

Results:

* `foldl_storeNode`, `table_eq`: the store after an import of mappings.
* `filled_foldl`: rows that put ascending mappings on nodes without mappings.
* `foldl_applyRow_held`: rows that are held already.
-/

namespace Rollup

/-- The node with the given mappings. -/
def Node.mapped (n : Node) (ms : List SourceMapping) : Node :=
  { n with mappings := ms }

@[simp] theorem Node.mappings_mapped (n : Node) (ms : List SourceMapping) :
    (n.mapped ms).mappings = ms := rfl
@[simp] theorem Node.id_mapped (n : Node) (ms : List SourceMapping) : (n.mapped ms).id = n.id := rfl
@[simp] theorem Node.hierarchyId_mapped (n : Node) (ms : List SourceMapping) :
    (n.mapped ms).hierarchyId = n.hierarchyId := rfl
@[simp] theorem Node.mapped_mapped (n : Node) (ms ms' : List SourceMapping) :
    (n.mapped ms).mapped ms' = n.mapped ms' := rfl

/-- The first of the given nodes with the storage id of `m`, as it is kept, or else `m`. -/
def Node.replacedBy (ns : List Node) (m : Node) : Node :=
  ((ns.find? (·.id == m.id)).map Node.kept).getD m

theorem Node.replacedBy_of_notMem {ns : List Node} {m : Node} (free : m.id ∉ ns.map (·.id)) :
    m.replacedBy ns = m := by
  have none : ns.find? (·.id == m.id) = none := by
    rw [List.find?_eq_none]
    intro n hn same
    exact free (List.mem_map.mpr ⟨n, hn, by simpa using same⟩)
  rw [replacedBy, none]
  rfl

theorem Node.replacedBy_cons (n : Node) (ns : List Node) (m : Node) :
    m.replacedBy (n :: ns) = if n.id = m.id then n.kept else m.replacedBy ns := by
  unfold replacedBy
  rw [List.find?_cons]
  split_ifs with same
  · rw [beq_iff_eq.mpr same]
    rfl
  · rw [beq_eq_false_iff_ne.mpr same]

/-- Of nodes with distinct ids some are revised: these are replaced, the others stay. -/
theorem Node.replacedBy_map_filter {base : List Node} (ids : (base.map (·.id)).Nodup)
    {f : Node → Node} (same : ∀ n, (f n).id = n.id) (c : Node → Bool) {n : Node} (mem : n ∈ base) :
    n.replacedBy ((base.filter c).map f) = if c n then (f n).kept else n := by
  have map_id : ∀ ns : List Node, (ns.map f).map (·.id) = ns.map (·.id) := by
    intro ns
    rw [List.map_map]
    exact List.map_congr_left fun m _ => same m
  split_ifs with chosen
  · have distinct : (((base.filter c).map f).map (·.id)).Nodup := by
      rw [map_id]
      exact ids.sublist (List.filter_sublist.map _)
    obtain ⟨i, here⟩ := List.getElem?_of_mem
      (List.mem_map_of_mem (f := f) (List.mem_filter.mpr ⟨mem, chosen⟩))
    have found := find?_of_nodup distinct here
    rw [same n] at found
    rw [replacedBy, found]
    rfl
  · refine replacedBy_of_notMem fun there => ?_
    rw [map_id] at there
    obtain ⟨m, hm, eq⟩ := List.mem_map.mp there
    obtain ⟨inBase, revised⟩ := List.mem_filter.mp hm
    exact chosen (List.inj_on_of_nodup_map ids inBase mem eq ▸ revised)

/-- The store with the given nodes in the places of those that have their storage ids. -/
def Store.replacing (s : Store) (ns : List Node) : Store :=
  { s with nodes := s.nodes.map (Node.replacedBy ns) }

namespace MappingImport

/-! ## Writing nodes back -/

/-- The node differs from a stored one of the project in its mappings only. -/
def Revises (s : Store) (project : String) (n : Node) : Prop :=
  ∃ old ∈ s.nodesOf project, n.unmapped = old.unmapped

section Writing

variable {s : Store} {project : String} {n : Node}

theorem place_replacedBy {ns : List Node} {m : Node} (ids : (s.nodes.map (·.id)).Nodup)
    (revises : ∀ n ∈ ns, Revises s project n) (mem : m ∈ s.nodes) :
    (m.replacedBy ns).place = m.place := by
  induction ns with
  | nil => rfl
  | cons n ns ih =>
    rw [Node.replacedBy_cons]
    split_ifs with hid
    · obtain ⟨old, hold, same⟩ := revises n (by simp)
      have place := Node.place_of_unmapped same
      have eq : m = old := List.inj_on_of_nodup_map ids mem (Store.mem_nodesOf.mp hold).1
        (hid.symm.trans (congrArg Node.Place.id place))
      rw [eq, ← place]
      rfl
    · exact ih fun k hk => revises k (by simp [hk])

theorem update_eq (ids : (s.nodes.map (·.id)).Nodup)
    (keys : ((s.nodesOf project).map (·.hierarchyId)).Nodup) (revises : Revises s project n) :
    s.update n = .ok (s.replacing [n]) := by
  obtain ⟨old, hold, same⟩ := revises
  obtain ⟨mem, inProject⟩ := Store.mem_nodesOf.mp hold
  have place := Node.place_of_unmapped same
  have id : n.id = old.id := congrArg Node.Place.id place
  have key : n.hierarchyId = old.hierarchyId := congrArg Node.Place.hierarchyId place
  have projectId : n.projectId = old.projectId := congrArg Node.Place.projectId place
  rw [Store.update_stored mem id.symm ids]
  · unfold Store.replacing
    congr 2
    refine List.map_congr_left fun m hm => ?_
    rw [Node.replacedBy_cons]
    by_cases hid : m.id = n.id
    · have eq : m = old := List.inj_on_of_nodup_map ids hm mem (hid.trans id)
      rw [if_pos hid, if_pos hid.symm, eq, ← projectId]
      rfl
    · rw [if_neg hid, if_neg (Ne.symm hid)]
      rfl
  · intro m hm hkey
    rw [inProject] at hm
    rw [List.inj_on_of_nodup_map keys hm hold (hkey.trans key), id]

/-- Writing one node and then the others is writing them all. -/
theorem replacing_replacing {todo : List Node} (fresh : n.id ∉ todo.map (·.id)) :
    (s.replacing [n]).replacing todo = s.replacing (n :: todo) := by
  unfold Store.replacing
  dsimp only
  congr 1
  rw [List.map_map]
  refine List.map_congr_left fun m _ => ?_
  rw [Function.comp_apply, Node.replacedBy_cons, Node.replacedBy_cons]
  split_ifs
  · exact Node.replacedBy_of_notMem fresh
  · rfl

/-- Nodes that revise stored ones are written in their places. -/
theorem foldl_storeNode (summary : Summary) (todo : List Node) : ∀ s : Store,
    (todo.map (·.id)).Nodup → (s.nodes.map (·.id)).Nodup →
    ((s.nodesOf project).map (·.hierarchyId)).Nodup → (∀ n ∈ todo, Revises s project n) →
    todo.foldl (storeNode .permissive) (s, summary) = (s.replacing todo, summary) := by
  induction todo with
  | nil =>
    intro s _ _ _ _
    have same : s.nodes.map (Node.replacedBy []) = s.nodes := List.map_id s.nodes
    rw [List.foldl_nil, Store.replacing, same]
  | cons n todo ih =>
    intro s distinct ids keys revises
    obtain ⟨fresh, distinct⟩ := List.nodup_cons.mp distinct
    have here := revises n (by simp)
    have places : ∀ m ∈ s.nodes, (m.replacedBy [n]).place = m.place :=
      fun m hm => place_replacedBy ids (by simpa using here) hm
    have written : storeNode .permissive (s, summary) n = (s.replacing [n], summary) := by
      unfold storeNode
      simp only [Store.guardedUpdate, WriteGuard.permissive, update_eq ids keys here]
    rw [List.foldl_cons, written, ih _ distinct, replacing_replacing fresh]
    · change ((s.nodes.map _).map _).Nodup
      rw [List.map_map]
      have same : s.nodes.map ((fun m : Node => m.id) ∘ Node.replacedBy [n]) =
          s.nodes.map (·.id) :=
        List.map_congr_left fun m hm => congrArg Node.Place.id (places m hm)
      rw [same]
      exact ids
    · rw [Store.map_hierarchyId_nodesOf rfl places]
      exact keys
    · intro k hk
      -- the node that the later one revises is not the one just written
      obtain ⟨old, hold, same⟩ := revises k (by simp [hk])
      have ne : n.id ≠ old.id := by
        intro h
        apply fresh
        have id : k.id = old.id := congrArg Node.Place.id (Node.place_of_unmapped same)
        exact List.mem_map.mpr ⟨k, hk, id.trans h.symm⟩
      obtain ⟨mem, inProject⟩ := Store.mem_nodesOf.mp hold
      refine ⟨old, Store.mem_nodesOf.mpr ⟨List.mem_map.mpr ⟨old, mem, ?_⟩, inProject⟩, same⟩
      exact Node.replacedBy_of_notMem (by simpa using Ne.symm ne)

end Writing

/-! ## Importing a table -/

/-- The nodes whose mappings changed. -/
def Progress.revised (p : Progress) : List Node :=
  (p.nodes.zipIdx.filter fun (_, i) => i ∈ p.changed).map (·.1)

theorem Progress.sublist_revised (p : Progress) : p.revised.Sublist p.nodes := by
  have sub := (List.filter_sublist
    (l := p.nodes.zipIdx) (p := fun (_, i) => decide (i ∈ p.changed))).map (·.1)
  rwa [List.zipIdx_map_fst] at sub

/-- The revised nodes, where it is known which nodes changed and what became of them. -/
theorem Progress.revised_eq {p : Progress} {base : List Node} {f : Node → Node} {c : Node → Bool}
    (nodes : p.nodes = base.map f)
    (changed : ∀ i n, base[i]? = some n → (i ∈ p.changed ↔ c n = true)) :
    p.revised = (base.filter c).map f := by
  have fst := List.filter_map (f := Prod.fst) (l := base.zipIdx) (p := c)
  rw [List.zipIdx_map_fst] at fst
  rw [fst, revised, nodes, List.zipIdx_map, List.filter_map, List.map_map, List.map_map]
  refine congrArg (List.map _) (List.filter_congr fun q hq => ?_)
  have here : base[q.2]? = some q.1 := List.mem_zipIdx_iff_getElem?.mp hq
  have same := changed q.2 q.1 here
  rw [Bool.eq_iff_iff]
  simpa using same

/-- The progress after all rows of a table. -/
def finish (s : Store) (project : String) (t : Table) : Progress :=
  (t.rows.map t.mappingRow).foldl applyOutcome
    { nodes := s.nodesOf project, summary := { errors := t.problems } }

theorem unmapped_finish (s : Store) (project : String) (t : Table) :
    (finish s project t).nodes.map Node.unmapped = (s.nodesOf project).map Node.unmapped :=
  unmapped_foldl _ _

theorem revises_finish {s : Store} {project : String} {t : Table} {n : Node}
    (mem : n ∈ (finish s project t).nodes) : Revises s project n := by
  have mem := List.mem_map_of_mem (f := Node.unmapped) mem
  rw [unmapped_finish] at mem
  obtain ⟨old, hold, same⟩ := List.mem_map.mp mem
  exact ⟨old, hold, same.symm⟩

/-- The store after an import of mappings has the nodes whose mappings changed in their places. -/
theorem table_eq {s : Store} {project : String} (known : s.hasProject project = true)
    (ids : (s.nodes.map (·.id)).Nodup) (keys : ((s.nodesOf project).map (·.hierarchyId)).Nodup)
    (t : Table) :
    table .permissive s project t =
      .ok (s.replacing (finish s project t).revised, (finish s project t).summary) := by
  have same : (finish s project t).nodes.map (·.id) = (s.nodesOf project).map (·.id) :=
    Node.map_of_unmapped (fun _ => rfl) (unmapped_finish s project t)
  have distinct : ((finish s project t).revised.map (·.id)).Nodup := by
    refine List.Nodup.sublist ((Progress.sublist_revised _).map _) ?_
    rw [same]
    exact List.Nodup.sublist (List.filter_sublist.map _) ids
  have written := foldl_storeNode (finish s project t).summary (finish s project t).revised s
    distinct ids keys fun n hn => revises_finish ((Progress.sublist_revised _).subset hn)
  rw [table, if_pos known]
  exact congrArg Except.ok written

/-- An import of mappings leaves every node in its place. -/
theorem place_revised {s : Store} (ids : (s.nodes.map (·.id)).Nodup) (project : String) (t : Table)
    {m : Node} (mem : m ∈ s.nodes) :
    (m.replacedBy (finish s project t).revised).place = m.place := by
  have revises : ∀ n ∈ (finish s project t).revised, Revises s project n :=
    fun n hn => revises_finish ((Progress.sublist_revised _).subset hn)
  exact place_replacedBy ids revises mem

theorem hierarchyId_revised {s : Store} (ids : (s.nodes.map (·.id)).Nodup) (project : String)
    (t : Table) {m : Node} (mem : m ∈ s.nodes) :
    (m.replacedBy (finish s project t).revised).hierarchyId = m.hierarchyId :=
  congrArg Node.Place.hierarchyId (place_revised ids project t mem)

/-- The nodes of a project after an import of mappings. -/
theorem nodesOf_replacing {s : Store} (ids : (s.nodes.map (·.id)).Nodup) (project : String)
    (t : Table) (project' : String) :
    (s.replacing (finish s project t).revised).nodesOf project' =
      (s.nodesOf project').map (Node.replacedBy (finish s project t).revised) :=
  Store.nodesOf_map rfl
    (fun _ hm => congrArg Node.Place.projectId (place_revised ids project t hm)) project'

/-! ## Rows of nodes with distinct hierarchy ids -/

/-- The mappings that rows put on the node with a hierarchy id. -/
def mappingsFor (rows : List MappingRow) (h : String) : List SourceMapping :=
  (rows.filter (·.hierarchyId == some h)).map (·.mapping)

theorem mappingsFor_append (rows : List MappingRow) (row : MappingRow) (h : String) :
    mappingsFor (rows ++ [row]) h =
      mappingsFor rows h ++ if row.hierarchyId = some h then [row.mapping] else [] := by
  unfold mappingsFor
  rw [List.filter_append, List.map_append]
  by_cases same : row.hierarchyId = some h
  · rw [if_pos same, List.filter_cons_of_pos (by simpa using same)]
    rfl
  · rw [if_neg same, List.filter_cons_of_neg (by simpa using same)]
    rfl

section Rows

variable {p : Progress} {row : MappingRow} {i : Nat} {n : Node}

theorem findIdx?_hierarchyId {nodes : List Node} (keys : (nodes.map (·.hierarchyId)).Nodup)
    (here : nodes[i]? = some n) :
    nodes.findIdx? (·.hierarchyId == n.hierarchyId) = some i := by
  obtain ⟨bound, eq⟩ := List.getElem?_eq_some_iff.mp here
  rw [List.findIdx?_eq_some_iff_getElem]
  refine ⟨bound, by simp [eq], fun j hj same => ?_⟩
  have same : nodes[j].hierarchyId = n.hierarchyId := by simpa using same
  have at_j : nodes[j]? = some nodes[j] := List.getElem?_eq_getElem (Nat.lt_trans hj bound)
  exact Nat.ne_of_lt hj (index_of_nodup_map keys at_j here same)

/-- A row whose mapping is above all that its node has. -/
theorem applyRow_above (keys : (p.nodes.map (·.hierarchyId)).Nodup) (here : p.nodes[i]? = some n)
    (named : row.hierarchyId = some n.hierarchyId)
    (index : row.mappingIndex = some row.mapping.index)
    (ascending : (n.mappings ++ [row.mapping]).Pairwise fun a b => a.index < b.index) :
    applyRow p row =
      { nodes := p.nodes.modify i (·.mapped (n.mappings ++ [row.mapping]))
        changed := if i ∈ p.changed then p.changed else p.changed ++ [i]
        summary := { p.summary with imported := p.summary.imported + 1 } } := by
  obtain ⟨held, -, below⟩ := List.pairwise_append.mp ascending
  have put := MappingList.put_of_last held fun a ha => below a ha row.mapping (by simp)
  unfold applyRow
  rw [named, index]
  simp only [findIdx?_hierarchyId keys here, here, Option.map_some, Option.getD_some, put]
  rfl

/-- A row whose mapping its node has. -/
theorem applyRow_held (keys : (p.nodes.map (·.hierarchyId)).Nodup) (here : p.nodes[i]? = some n)
    (named : row.hierarchyId = some n.hierarchyId)
    (index : row.mappingIndex = some row.mapping.index)
    (distinct : (n.mappings.map (·.index)).Nodup) (mem : row.mapping ∈ n.mappings) :
    applyRow p row =
      { p with
        nodes := p.nodes.modify i (·.mapped (MappingList.sort n.mappings))
        summary := p.summary.skip 1 } := by
  have put := MappingList.put_of_mem distinct mem
  unfold applyRow
  rw [named, index]
  simp only [findIdx?_hierarchyId keys here, here, Option.map_some, Option.getD_some, put]
  rfl

end Rows

/-! ## Rows that fill nodes without mappings -/

/-- The progress after rows that fill the nodes of `base`. -/
structure Filled (base : List Node) (rows : List MappingRow) (p : Progress) : Prop where
  nodes : p.nodes = base.map fun n => n.mapped (mappingsFor rows n.hierarchyId)
  changed : ∀ i, i ∈ p.changed ↔ ∃ n, p.nodes[i]? = some n ∧ n.mappings ≠ []
  summary : p.summary = { imported := rows.length }

theorem Filled.keys {base : List Node} {rows : List MappingRow} {p : Progress}
    (h : Filled base rows p) :
    p.nodes.map (·.hierarchyId) = base.map (·.hierarchyId) := by
  rw [h.nodes, List.map_map]
  rfl

/-- One more row. -/
theorem Filled.step {base : List Node} {rows : List MappingRow} {p : Progress}
    (h : Filled base rows p) (distinct : (base.map (·.hierarchyId)).Nodup) {row : MappingRow}
    (named : ∃ n ∈ base, row.hierarchyId = some n.hierarchyId)
    (index : row.mappingIndex = some row.mapping.index)
    (ascending : ∀ k, (mappingsFor (rows ++ [row]) k).Pairwise fun a b => a.index < b.index) :
    Filled base (rows ++ [row]) (applyRow p row) := by
  obtain ⟨n, hn, named⟩ := named
  obtain ⟨i, here⟩ := List.getElem?_of_mem hn
  have put : ∀ (j : Nat) (m : Node), base[j]? = some m →
      mappingsFor (rows ++ [row]) m.hierarchyId =
        mappingsFor rows m.hierarchyId ++ if i = j then [row.mapping] else [] := by
    intro j m at_j
    rw [mappingsFor_append]
    by_cases same : i = j
    · subst same
      obtain rfl : n = m := Option.some.inj (here.symm.trans at_j)
      rw [if_pos named, if_pos rfl]
    · have apart : row.hierarchyId ≠ some m.hierarchyId := fun eq =>
        same (index_of_nodup_map distinct here at_j (Option.some.inj (named.symm.trans eq)))
      rw [if_neg apart, if_neg same]
  have at_i : p.nodes[i]? = some (n.mapped (mappingsFor rows n.hierarchyId)) := by
    rw [h.nodes, List.getElem?_map, here]
    rfl
  have put_i := put i n here
  rw [if_pos rfl] at put_i
  have step := applyRow_above (h.keys ▸ distinct) at_i named index
    (put_i ▸ ascending n.hierarchyId)
  have nodes : (applyRow p row).nodes =
      base.map fun n => n.mapped (mappingsFor (rows ++ [row]) n.hierarchyId) := by
    rw [step]
    refine List.ext_getElem? fun j => ?_
    rw [List.getElem?_modify, h.nodes, List.getElem?_map, List.getElem?_map]
    cases at_j : base[j]? with
    | none => rfl
    | some m =>
      by_cases same : i = j
      · subst same
        obtain rfl : n = m := Option.some.inj (here.symm.trans at_j)
        simp [put_i]
      · simp [same, put j m at_j]
  have changed : ∀ j, j ∈ (applyRow p row).changed ↔ j ∈ p.changed ∨ i = j := by
    intro j
    rw [step]
    dsimp only
    split
    · rename_i seen
      exact ⟨Or.inl, fun h => h.elim id fun same => same ▸ seen⟩
    · rw [List.mem_append, List.mem_singleton, eq_comm (a := j)]
  refine ⟨nodes, fun j => ?_, ?_⟩
  · rw [changed, h.changed, nodes, h.nodes, List.getElem?_map, List.getElem?_map]
    cases at_j : base[j]? with
    | none =>
      have apart : i ≠ j := by
        rintro rfl
        rw [here] at at_j
        cases at_j
      simp [apart]
    | some m => by_cases same : i = j <;> simp [same, put j m at_j]
  · rw [step, h.summary, List.length_append]
    rfl

/-- Rows that put ascending mappings on nodes without mappings. -/
theorem filled_foldl {base : List Node} (distinct : (base.map (·.hierarchyId)).Nodup)
    (empty : ∀ n ∈ base, n.mappings = []) (rows : List MappingRow)
    (named : ∀ row ∈ rows, ∃ n ∈ base, row.hierarchyId = some n.hierarchyId)
    (index : ∀ row ∈ rows, row.mappingIndex = some row.mapping.index)
    (ascending : ∀ k, (mappingsFor rows k).Pairwise fun a b => a.index < b.index) :
    Filled base rows (rows.foldl applyRow { nodes := base }) := by
  induction rows using List.reverseRecOn with
  | nil =>
    refine ⟨?_, fun i => ?_, rfl⟩
    · nth_rewrite 1 [List.foldl_nil, ← List.map_id base]
      refine List.map_congr_left fun n hn => ?_
      calc n = n.mapped n.mappings := rfl
        _ = n.mapped [] := by rw [empty n hn]
    · simp only [List.foldl_nil, List.not_mem_nil, false_iff]
      rintro ⟨n, here, filled⟩
      exact filled (empty n (List.mem_of_getElem? here))
  | append_singleton rows row ih =>
    have before : ∀ k, (mappingsFor rows k).Pairwise fun a b => a.index < b.index := by
      intro k
      refine List.Pairwise.sublist ?_ (ascending k)
      rw [mappingsFor_append]
      exact List.sublist_append_left _ _
    have filled := ih (fun r hr => named r (by simp [hr])) (fun r hr => index r (by simp [hr]))
      before
    rw [List.foldl_append, List.foldl_cons, List.foldl_nil]
    exact filled.step distinct (named row (by simp)) (index row (by simp)) ascending

/-- A node of `base` after the nodes that changed have been written back. -/
theorem Filled.replacedBy {base : List Node} {rows : List MappingRow} {p : Progress}
    (h : Filled base rows p) (ids : (base.map (·.id)).Nodup) {n : Node} (mem : n ∈ base) :
    n.replacedBy p.revised =
      if mappingsFor rows n.hierarchyId = [] then n
      else (n.mapped (mappingsFor rows n.hierarchyId)).kept := by
  have changed : ∀ i m, base[i]? = some m →
      (i ∈ p.changed ↔ (!(mappingsFor rows m.hierarchyId).isEmpty) = true) := by
    intro i m here
    rw [h.changed, h.nodes, List.getElem?_map, here]
    simp
  rw [Progress.revised_eq h.nodes changed,
    Node.replacedBy_map_filter ids (fun n => Node.id_mapped n _) _ mem]
  by_cases none : mappingsFor rows n.hierarchyId = []
  · rw [if_pos none, if_neg (by simp [none])]
  · rw [if_neg none, if_pos (by simp [none])]

/-! ## Rows that are held already -/

/-- Rows that are held already only count as skipped. -/
theorem foldl_applyRow_held (rows : List MappingRow) : ∀ p : Progress,
    (p.nodes.map (·.hierarchyId)).Nodup → (∀ n ∈ p.nodes, (n.mappings.map (·.index)).Nodup) →
    (∀ row ∈ rows, ∃ n ∈ p.nodes, row.hierarchyId = some n.hierarchyId ∧
      row.mappingIndex = some row.mapping.index ∧ row.mapping ∈ n.mappings) →
    ∃ nodes, rows.foldl applyRow p =
      { p with nodes := nodes, summary := p.summary.skip rows.length } := by
  induction rows with
  | nil => intro p _ _ _; exact ⟨p.nodes, rfl⟩
  | cons row rows ih =>
    intro p keys distinct held
    obtain ⟨n, hn, named, index, mem⟩ := held row (by simp)
    obtain ⟨i, here⟩ := List.getElem?_of_mem hn
    rw [List.foldl_cons, applyRow_held keys here named index (distinct n hn) mem]
    -- the node is sorted, which changes neither what it holds nor the distinctness of its indexes
    set sorted := p.nodes.modify i (·.mapped (MappingList.sort n.mappings)) with hsorted
    have at_j : ∀ (j : Nat) (m : Node), p.nodes[j]? = some m → ∃ m' : Node, sorted[j]? = some m' ∧
        m'.hierarchyId = m.hierarchyId ∧ m'.mappings.Perm m.mappings := by
      intro j m hm
      rw [hsorted, List.getElem?_modify, hm]
      by_cases same : i = j
      · subst same
        obtain rfl : n = m := Option.some.inj (here.symm.trans hm)
        exact ⟨n.mapped (MappingList.sort n.mappings), by simp, rfl, MappingList.perm_sort _⟩
      · exact ⟨m, by simp [same], rfl, List.Perm.refl _⟩
    have hkeys : sorted.map (·.hierarchyId) = p.nodes.map (·.hierarchyId) :=
      Node.map_of_unmapped (fun _ => rfl)
        (unmapped_modify p.nodes i (MappingList.sort n.mappings))
    obtain ⟨nodes, eq⟩ := ih { p with nodes := sorted, summary := p.summary.skip 1 }
      (hkeys ▸ keys)
      (by
        intro m' hm'
        obtain ⟨j, hj⟩ := List.getElem?_of_mem hm'
        have bound : j < p.nodes.length := by
          have := (List.getElem?_eq_some_iff.mp hj).1
          rwa [hsorted, List.length_modify] at this
        obtain ⟨m, hm, -, perm⟩ := at_j j _ (List.getElem?_eq_getElem bound)
        obtain rfl : m' = m := Option.some.inj (hj.symm.trans hm)
        exact ((perm.map _).nodup_iff).mpr (distinct _ (List.getElem_mem bound)))
      (by
        intro row' hrow'
        obtain ⟨m, hm, named', index', mem'⟩ := held row' (by simp [hrow'])
        obtain ⟨j, hj⟩ := List.getElem?_of_mem hm
        obtain ⟨m', hm', key, perm⟩ := at_j j m hj
        exact ⟨m', List.mem_of_getElem? hm', key ▸ named', index', perm.mem_iff.mpr mem'⟩)
    refine ⟨nodes, ?_⟩
    rw [eq]
    simp only [Summary.skip, List.length_cons, Progress.mk.injEq, Summary.mk.injEq, and_true,
      true_and]
    omega

end MappingImport

end Rollup

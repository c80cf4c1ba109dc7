import Mathlib.Data.List.Basic
import Rollup.Proofs.Import.Outcome
import Rollup.Proofs.RowGroup.Labels

/-!
# The totals of new nodes

A node has one total at most. If several labels are totals of its group, each is put on the node in
turn, and the last one stays.

Results:

* `totalAt_totalled`: the total that is put on a node of the batch.
* `Outcome.total?_made`: the total that is stored with a new node.
* `Outcome.total?_made_iff`: in terms of the rows, the total of the last label of the group.
-/

namespace Rollup

namespace TotalPlan

variable {groups : List RowGroup}

/-- The children of a plan are the other groups that carry its label. -/
theorem totalChildren_eq {t : TotalPlan} {label : String} {parent : Nat}
    (children : t.children = ((carriers groups label).map (·.2)).filter (· ≠ parent)) :
    t.totalChildren groups = childrenOf groups label parent := by
  rw [totalChildren, children, childrenOf, List.filter_map, List.filterMap_map,
    ← List.filterMap_eq_map]
  refine List.filterMap_congr fun q hq => ?_
  have there := List.mem_zipIdx_iff_getElem?.mp (List.mem_filter.mp (List.mem_filter.mp hq).1).1
  rw [Function.comp_apply, Function.comp_apply, there, Option.map_some]

/-- A total adds up the groups that carry a label of its group, and no label after it is also a total
    of the group. -/
structure IsLastTotal (groups : List RowGroup) (parent : Nat) (name : String) (t : Total) :
    Prop where
  isTotal : IsTotal groups t.groupName parent t.aggregation
  last : ∀ label op, IsTotal groups label parent op →
    (labels groups).idxOf label ≤ (labels groups).idxOf t.groupName
  children : t.children = childrenOf groups t.groupName parent
  mainName : t.mainName = name

/-- The last plan for a group makes the total of its last label. -/
theorem map_getLast?_plan_iff {parent : Nat} {name : String} {total : Total} :
    (((plan groups).1.filter (·.parent = parent)).getLast?).map (fun t =>
        (⟨t.label, name, t.aggregation, t.totalChildren groups⟩ : Total)) = some total ↔
      IsLastTotal groups parent name total := by
  rw [Option.map_eq_some_iff]
  constructor
  · rintro ⟨t, last, rfl⟩
    obtain ⟨-, isTotal, children, latest⟩ := getLast?_plan_iff.mp last
    exact ⟨isTotal, latest, totalChildren_eq children, rfl⟩
  · rintro ⟨isTotal, latest, children, rfl⟩
    refine ⟨⟨total.groupName, total.aggregation, parent,
      ((carriers groups total.groupName).map (·.2)).filter (· ≠ parent)⟩,
      getLast?_plan_iff.mpr ⟨rfl, isTotal, rfl, latest⟩, ?_⟩
    rw [totalChildren_eq rfl, ← children]

end TotalPlan

namespace ImportPlan

variable {p : ImportPlan} {stored : List Node}

/-- The node of a new group stands after the stored nodes, at the place of its group. -/
theorem lookup_placed {gi k : Nat} :
    (p.groups.zipIdx.foldl (fun a (g, gi) =>
        Assembly.addGroup p p.repeats (p.existing (Batch.ofStored stored)) a gi g)
      { batch := Batch.ofStored stored }).placed.lookup gi = some (k + stored.length) ↔
    ((p.newGroups (Batch.ofStored stored))[k]?).map (·.2) = some gi := by
  have nodup : ((p.newGroups (Batch.ofStored stored)).map (·.2)).Nodup :=
    (List.filter_sublist.map _).nodup (TotalPlan.nodup_map_snd_zipIdx p.groups)
  rw [Assembly.placed_foldl_addGroup, List.nil_append, Batch.size_ofStored, ← List.getElem?_map]
  exact lookup_zipIdx_from nodup

section Drafted

variable {added : List Placeholder}
  (drafted : (p.filled stored).Drafted stored p.project (p.drafts stored added))

include drafted

/-- Before the totals are put on, no new node has one. -/
theorem totalAt_filled (k : Nat) :
    Assembly.totalAt (p.filled stored) (k + stored.length) = none := by
  rw [Assembly.totalAt, drafted.entries, List.getElem?_append_right (by simp), List.length_map,
    Nat.add_sub_cancel, Option.bind_eq_none_iff]
  intro e he
  rcases List.mem_append.mp (List.mem_of_getElem? he) with he | he
  · obtain ⟨q, -, rfl⟩ := List.mem_map.mp he
    exact q.1.total?_node p.project
  · obtain ⟨h, -, rfl⟩ := List.mem_map.mp he
    rfl

/-- The name of the node of a new group is that of the group. -/
theorem name_filled {k : Nat} {q : RowGroup × Nat}
    (here : (p.newGroups (Batch.ofStored stored))[k]? = some q) :
    ((p.filled stored).entries[k + stored.length]?).map (·.node.name) = some q.1.name := by
  rw [drafted.entries, List.getElem?_append_right (by simp), List.length_map, Nat.add_sub_cancel,
    drafts, List.getElem?_append_left, List.getElem?_map, here]
  · rfl
  · rw [List.length_map]
    exact (List.getElem?_eq_some_iff.mp here).1

/-- The total of a new node is that of the last plan for its group. -/
theorem totalAt_totalled (k : Nat) :
    Assembly.totalAt (p.totalled stored) (k + stored.length) =
      ((p.newGroups (Batch.ofStored stored))[k]?).bind fun q =>
        ((p.totals.filter (·.parent = q.2)).getLast?).map fun t =>
          ⟨t.label, q.1.name, t.aggregation, t.totalChildren p.groups⟩ := by
  rw [totalled]
  dsimp only
  rw [Assembly.totalAt_foldl_addTotal]
  simp only [lookup_placed]
  cases here : (p.newGroups (Batch.ofStored stored))[k]? with
  | none =>
    simp only [Option.map_none, reduceCtorEq, decide_false, List.filter_false, List.getLast?_nil,
      Option.bind_none]
    exact totalAt_filled drafted k
  | some q =>
    have plans : (p.totals.filter fun t => (some q).map (·.2) = some t.parent) =
        p.totals.filter (·.parent = q.2) := by
      refine List.filter_congr fun t _ => decide_eq_decide.mpr ?_
      rw [Option.map_some, Option.some.injEq]
      exact eq_comm
    rw [plans, Option.bind_some]
    cases (p.totals.filter (·.parent = q.2)).getLast? with
    | none => exact totalAt_filled drafted k
    | some t =>
      have name := congrArg (Option.map fun name =>
        (⟨t.label, name, t.aggregation, t.totalChildren p.groups⟩ : Total))
        (name_filled drafted here)
      rw [Option.map_map] at name
      exact name

end Drafted

section Outcome

variable {marks : Bool} {added : List Placeholder} {ids : List String} {made : List Node}
  (h : p.Outcome stored marks added ids made) (distinct : (stored.map (·.hierarchyId)).Nodup)

include h distinct

/-- The total that is stored with a new node is that of the last plan for its group. -/
theorem Outcome.total?_made {k : Nat} {m : Node} (hm : made[k]? = some m) :
    m.total? = ((p.newGroups (Batch.ofStored stored))[k]?).bind fun q =>
      ((p.totals.filter (·.parent = q.2)).getLast?).map fun t =>
        ⟨t.label, q.1.name, t.aggregation, t.totalChildren p.groups⟩ := by
  obtain ⟨e, n, here, rfl, -, total⟩ := h.parts_made distinct hm
  have put := totalAt_totalled h.drafted k
  rw [Assembly.totalAt, here, Option.bind_some] at put
  have ids : (Directory.ofNodes (p.totalled stored).nodes).map (·.hierarchyId) =
      p.nodeIds stored := by
    rw [nodeIds, ← (p.agrees_totalled distinct).1.map_eq (·.node.hierarchyId) fun _ => rfl,
      Directory.ofNodes, Batch.nodes, List.map_map, List.map_map]
    rfl
  rw [total, Directory.total?_resolveNode, ← put]
  cases own : e.node.total? with
  | none => rfl
  | some t =>
    -- its children are groups, and groups have nodes
    rw [own, eq_comm, Option.bind_eq_some_iff] at put
    obtain ⟨q, -, put⟩ := put
    obtain ⟨plan, -, rfl⟩ := Option.map_eq_some_iff.mp put
    rw [Option.map_some, Directory.value_resolveTotal_of_known]
    intro c hc
    obtain ⟨i, -, hc⟩ := List.mem_filterMap.mp hc
    obtain ⟨g, hg, rfl⟩ := Option.map_eq_some_iff.mp hc
    rw [Option.any_some, Directory.hasId_iff, ids]
    exact p.group_mem_nodeIds distinct (List.mem_of_getElem? hg)

/-- A new node has the total of the last label of its group, and no other. -/
theorem Outcome.total?_made_iff (planned : p.totals = (TotalPlan.plan p.groups).1) {k : Nat}
    {m : Node} (hm : made[k]? = some m) {total : Total} :
    m.total? = some total ↔ ∃ q, (p.newGroups (Batch.ofStored stored))[k]? = some q ∧
      TotalPlan.IsLastTotal p.groups q.2 q.1.name total := by
  rw [h.total?_made distinct hm, planned, Option.bind_eq_some_iff]
  simp only [TotalPlan.map_getLast?_plan_iff]

end Outcome

end ImportPlan

end Rollup

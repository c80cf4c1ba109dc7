import Mathlib.Data.List.Basic
import Rollup.Proofs.Export.Labels
import Rollup.Proofs.Export.RoundTrip
import Rollup.Proofs.Import.NodeTotals

/-!
# Totals of an exported forest

An export states a total by its label alone: the aggregating node and the children carry it, and
every other node that carries the label is taken for a child by an import. So a total comes back as
it was unless a formula has the same label. A node is looked up by its id or else by its name, so a
node that is named like the id of a child carries the label as well; it becomes a child of a total
that it never was a child of.

Results:

* `total_of_made`, `exists_total_made`: the totals of the stored nodes.
* `label_iff`: which nodes carry the label of a total.
* `isCopy_total_made`: when the total of a stored node is that of the original.
* `total?_table`: when a total comes back.
-/

namespace Rollup

/-- The hierarchy ids of the children of a total. -/
def Total.childIds (t : Total) : List (Option String) :=
  t.children.map (·.hierarchyId)

/-- A total is the copy of another: it has the same children, in some order. -/
structure Total.IsCopy (t t' : Total) : Prop where
  groupName : t'.groupName = t.groupName
  aggregation : t'.aggregation = t.aggregation
  children : ∀ c, c ∈ t'.childIds ↔ c ∈ t.childIds

/-- No formula has the label of a total. -/
def Total.Unshared (nodes : List Node) (t : Total) : Prop :=
  ∀ n ∈ nodes, ∀ f ∈ n.formula, f.groupName ≠ t.groupName

/-- No node is looked up by its name for a child of a total: a node with neither a formula nor a
    total whose name is the id of a child is itself a child of some total. -/
def Total.Unnamed (nodes : List Node) (t : Total) : Prop :=
  ∀ n ∈ nodes, n.formula = none → n.total? = none → some n.name ∈ t.childIds →
    ∃ owner ∈ nodes, ∃ t' ∈ owner.total?, some n.hierarchyId ∈ t'.childIds

instance (nodes : List Node) (t : Total) : Decidable (t.Unshared nodes) :=
  inferInstanceAs (Decidable (∀ n ∈ nodes, ∀ f ∈ n.formula, f.groupName ≠ t.groupName))

instance (nodes : List Node) (t : Total) : Decidable (t.Unnamed nodes) :=
  inferInstanceAs (Decidable (∀ n ∈ nodes, n.formula = none → n.total? = none →
    some n.name ∈ t.childIds → ∃ owner ∈ nodes, ∃ t' ∈ owner.total?,
      some n.hierarchyId ∈ t'.childIds))

namespace Export

/-- Every total has a label and children of its own. It is on a node without a formula, and its
    children are nodes with neither a formula nor a total. -/
structure TotalsApart (nodes : List Node) : Prop where
  alone : ∀ n ∈ nodes, ∀ t ∈ n.total?, n.formula = none
  nonempty : ∀ n ∈ nodes, ∀ t ∈ n.total?, t.children ≠ []
  known : ∀ n ∈ nodes, ∀ t ∈ n.total?, ∀ c ∈ t.childIds, ∃ child ∈ nodes,
    c = some child.hierarchyId ∧ child.formula = none ∧ child.total? = none
  once : ∀ n ∈ nodes, ∀ t ∈ n.total?, ∀ n' ∈ nodes, ∀ t' ∈ n'.total?, ∀ c ∈ t.childIds,
    c ∈ t'.childIds → n.hierarchyId = n'.hierarchyId
  labels : ∀ n ∈ nodes, ∀ t ∈ n.total?, ∀ n' ∈ nodes, ∀ t' ∈ n'.total?,
    t.groupName = t'.groupName → n.hierarchyId = n'.hierarchyId

/-! ## Stored totals -/

section Made

variable {nodes : List Node} (h : Exportable nodes) {options : ExportOptions} {w : Window}
  {project : String} {ids : List String} {made : List Node}
  (outcome : (plan nodes options w project).Outcome [] true [] ids made)

include h outcome

/-- A stored node has the total of a plan for its group, or there is no such plan. -/
theorem total?_made {k : Nat} {m : Node} (hm : made[k]? = some m) :
    (m.total? = none ∧ ∀ t ∈ (plan nodes options w project).totals, t.parent ≠ k) ∨
      ∃ t ∈ (plan nodes options w project).totals, t.parent = k ∧ ∃ name, m.total? = some
        ⟨t.label, name, t.aggregation,
          t.totalChildren ((Sheet.ofNodes nodes options).groups w options)⟩ := by
  set p := plan nodes options w project
  have put := outcome.total?_made List.nodup_nil hm
  rw [p.newGroups_of_distinct (nodup_hierarchyId_groups h.legible w), List.getElem?_zipIdx] at put
  cases hg : p.groups[k]? with
  | none =>
    rw [hg] at put
    refine Or.inl ⟨put, fun t ht parent => ?_⟩
    have bound := TotalPlan.parent_lt_of_mem_plan ht
    exact absurd (List.getElem?_eq_none_iff.mp hg) (by rw [← parent]; exact Nat.not_le.mpr bound)
  | some g =>
    rw [hg, Option.map_some, Option.bind_some, Nat.zero_add] at put
    cases last : (p.totals.filter (·.parent = k)).getLast? with
    | none =>
      rw [last] at put
      rw [List.getLast?_eq_none_iff, List.filter_eq_nil_iff] at last
      exact Or.inl ⟨put, fun t ht parent => last t ht (decide_eq_true parent)⟩
    | some t =>
      rw [last] at put
      obtain ⟨ht, parent⟩ := List.mem_filter.mp (List.mem_of_getLast? last)
      exact Or.inr ⟨t, ht, of_decide_eq_true parent, g.name, put⟩

variable (plain : PlainLabels nodes) {k : Nat} {q : Nat × Node}
  (hq : (Sheet.ofNodes nodes options).written[k]? = some q) {m : Node} (hm : made[k]? = some m)

include plain hq hm

/-- A stored total is that of the exported node, but its children are all nodes with its label. -/
theorem total_of_made {t' : Total} (ht' : m.total? = some t') :
    ∃ t, q.2.total? = some t ∧ t'.groupName = t.groupName ∧ t'.aggregation = t.aggregation ∧
      ∀ c, c ∈ t'.childIds ↔ ∃ n ∈ nodes, c = some n.hierarchyId ∧
        n ≠ q.2 ∧ t.groupName ∈ ((Sheet.ofNodes nodes options).labels n).map (·.1) := by
  rcases total?_made h outcome hm with ⟨none, -⟩ | ⟨t₀, ht₀, rfl, name, found⟩
  · rw [none] at ht'
    cases ht'
  · rw [found, Option.some.injEq] at ht'
    subst ht'
    obtain ⟨stated, children⟩ := TotalPlan.of_mem_plan ht₀
    obtain ⟨q', hq', label⟩ := (mem_uses h plain w).mp stated
    obtain rfl : q' = q := Option.some.inj (hq'.symm.trans hq)
    obtain ⟨-, t, ht, sameLabel, sameAggregation⟩ := Sheet.mem_labels_aggregation_iff.mp label
    refine ⟨t, ht, sameLabel.symm, sameAggregation.symm, fun c => ?_⟩
    rw [sameLabel, Total.childIds, TotalPlan.totalChildren, List.mem_map]
    constructor
    · rintro ⟨_, mem, rfl⟩
      obtain ⟨j, hj, eq⟩ := List.mem_filterMap.mp mem
      obtain ⟨g, hg, rfl⟩ := Option.map_eq_some_iff.mp eq
      obtain ⟨⟨a, used⟩, apart⟩ := (children j).mp hj
      obtain ⟨r, hr, carried⟩ := (mem_uses h plain w).mp used
      obtain ⟨r', number, before, hr', -, rfl⟩ := exists_written w hg
      obtain rfl : r' = r := Option.some.inj (hr'.symm.trans hr)
      have mem := List.mem_of_getElem? ((mem_written h options).mp (List.mem_of_getElem? hr))
      refine ⟨r'.2, mem, congrArg some (RowGroup.hierarchyId_led _), fun same => apart ?_,
        List.mem_map.mpr ⟨_, carried, rfl⟩⟩
      exact index_of_nodup_map (nodup_hierarchyId_written h.legible) hr hq (congrArg _ same)
    · rintro ⟨n, hn, rfl, apart, carried⟩
      obtain ⟨i, here⟩ := List.getElem?_of_mem hn
      obtain ⟨j, hr⟩ := List.getElem?_of_mem ((mem_written h options).mpr here)
      obtain ⟨⟨label', a⟩, carried, rfl⟩ := List.mem_map.mp carried
      obtain ⟨number, before, -, hg⟩ := getElem?_groups w hr
      have used := (mem_uses h plain w (u := (t₀.label, ⟨j, a⟩))).mpr ⟨_, hr, carried⟩
      refine ⟨⟨some n.hierarchyId, n.name⟩,
        List.mem_filterMap.mpr ⟨j, (children j).mpr ⟨⟨a, used⟩, ?_⟩, ?_⟩, rfl⟩
      · rintro rfl
        rw [hq, Option.some.injEq] at hr
        exact apart (by rw [hr])
      · rw [hg, Option.map_some, RowGroup.hierarchyId_led, RowGroup.name_led]
        rfl

/-- A total is stored if no other row states an aggregation with its label, some other node carries
    the label, and no node carries it twice. -/
theorem exists_total_made {t : Total} (none : q.2.formula = none) (ht : q.2.total? = some t)
    (single : ∀ n ∈ nodes, ∀ a, (t.groupName, some a) ∈ (Sheet.ofNodes nodes options).labels n →
      n = q.2)
    (others : ∃ n ∈ nodes, n ≠ q.2 ∧
      t.groupName ∈ ((Sheet.ofNodes nodes options).labels n).map (·.1))
    (once : ∀ n ∈ nodes,
      (((Sheet.ofNodes nodes options).labels n).filter (·.1 = t.groupName)).length ≤ 1) :
    ∃ t', m.total? = some t' := by
  rcases total?_made h outcome hm with ⟨-, unplanned⟩ | ⟨t', -, -, name, found⟩
  · obtain ⟨planned, mem, parent⟩ : ∃ p ∈ (plan nodes options w project).totals, p.parent = k := by
      have stated : (t.groupName, some t.aggregation) ∈ (Sheet.ofNodes nodes options).labels q.2 :=
        Sheet.mem_labels_aggregation_iff.mpr ⟨none, t, ht, rfl, rfl⟩
      have used : (t.groupName, ⟨k, some t.aggregation⟩) ∈
          TotalPlan.uses ((Sheet.ofNodes nodes options).groups w options) :=
        (mem_uses h plain w).mpr ⟨q, hq, stated⟩
      refine TotalPlan.exists_plan used ?_ ?_ ?_
      · intro u used aggregates
        obtain ⟨r, hr, carried⟩ := (mem_uses h plain w).mp used
        obtain ⟨a, aggregation⟩ := Option.ne_none_iff_exists'.mp aggregates
        have mem := List.mem_of_getElem? ((mem_written h options).mp (List.mem_of_getElem? hr))
        dsimp only at carried
        rw [aggregation] at carried
        exact index_of_nodup_map (nodup_hierarchyId_written h.legible) hr hq
          (congrArg _ (single r.2 mem a carried))
      · obtain ⟨n, hn, apart, carried⟩ := others
        obtain ⟨i, here⟩ := List.getElem?_of_mem hn
        obtain ⟨j, hr⟩ := List.getElem?_of_mem ((mem_written h options).mpr here)
        obtain ⟨⟨label, a⟩, carried, rfl⟩ := List.mem_map.mp carried
        refine ⟨⟨j, a⟩, (mem_uses h plain w).mpr ⟨_, hr, carried⟩, ?_⟩
        rintro rfl
        rw [hq, Option.some.injEq] at hr
        exact apart (by rw [hr])
      · intro g hg
        obtain ⟨j, hg⟩ := List.getElem?_of_mem hg
        obtain ⟨r, -, -, hr, -⟩ := exists_written w hg
        have mem := List.mem_of_getElem? ((mem_written h options).mp (List.mem_of_getElem? hr))
        exact ((labels_groups h plain w hg hr).filter _).length_eq.trans_le (once r.2 mem)
    exact absurd parent (unplanned planned mem)
  · exact ⟨_, found⟩

end Made

/-! ## Labels of totals -/

/-- Where no formula has a label, no node carries it twice. -/
theorem length_labels_le {nodes : List Node} {label : String}
    (formulas : ∀ n ∈ nodes, ∀ f ∈ n.formula, f.groupName ≠ label) {s : Sheet} {n : Node}
    (hn : n ∈ nodes) : ((s.labels n).filter (·.1 = label)).length ≤ 1 := by
  rw [Sheet.labels]
  split
  · rename_i f formula
    simp [formulas n hn f formula]
  · exact List.length_filter_le _ _
  · refine (List.length_filter_le _ _).trans ?_
    cases s.childLabel? n <;> simp

section Labels

variable {nodes : List Node} (h : Exportable nodes) (apart : TotalsApart nodes)
  {options : ExportOptions}

include h apart

/-- Children are looked up by their hierarchy ids. -/
theorem lookup_childLabels {key label : String} :
    (Sheet.ofNodes nodes options).childLabels.lookup key = some label ↔
      ∃ n ∈ nodes, ∃ t ∈ n.total?, some key ∈ t.childIds ∧ t.groupName = label := by
  have named : ∀ label, (key, label) ∈ (Sheet.ofNodes nodes options).childLabels ↔
      ∃ n ∈ nodes, ∃ t ∈ n.total?, some key ∈ t.childIds ∧ t.groupName = label := by
    intro label
    rw [mem_childLabels h]
    constructor
    · rintro ⟨n, hn, -, t, ht, child, hchild, eq⟩
      have mem : child.hierarchyId ∈ t.childIds := List.mem_map_of_mem hchild
      obtain ⟨p, -, known, -⟩ := apart.known n hn t ht _ mem
      rw [known, Option.getD_some, Prod.mk.injEq] at eq
      exact ⟨n, hn, t, ht, by rw [eq.1, ← known]; exact mem, eq.2.symm⟩
    · rintro ⟨n, hn, t, ht, mem, rfl⟩
      obtain ⟨child, hchild, same⟩ := List.mem_map.mp mem
      exact ⟨n, hn, apart.alone n hn t ht, t, ht, child, hchild, by rw [same]; rfl⟩
  rw [← named]
  refine ⟨mem_of_lookup, fun mem => lookup_of_unique mem fun other mem' => ?_⟩
  obtain ⟨n, hn, t, ht, child, rfl⟩ := (named label).mp mem
  obtain ⟨n', hn', t', ht', child', rfl⟩ := (named other).mp mem'
  obtain rfl := List.inj_on_of_nodup_map h.hierarchyIds hn hn'
    (apart.once n hn t ht n' hn' t' ht' _ child child')
  rw [Option.some.inj (ht.symm.trans ht')]

variable {owner : Node} (ho : owner ∈ nodes) {t : Total} (ht : t ∈ owner.total?)

include ho ht

/-- The label of a total leads to its node. -/
theorem owner_of_label {n : Node} (hn : n ∈ nodes) {t' : Total} (ht' : t' ∈ n.total?)
    (same : t'.groupName = t.groupName) : n = owner :=
  List.inj_on_of_nodup_map h.hierarchyIds hn ho (apart.labels n hn t' ht' owner ho t ht same)

theorem lookup_childLabels_eq {key : String} :
    (Sheet.ofNodes nodes options).childLabels.lookup key = some t.groupName ↔
      some key ∈ t.childIds := by
  rw [lookup_childLabels h apart]
  constructor
  · rintro ⟨n, hn, t', ht', child, same⟩
    obtain rfl := owner_of_label h apart ho ht hn ht' same
    rwa [Option.some.inj (ht.symm.trans ht')]
  · intro child
    exact ⟨owner, ho, t, ht, child, rfl⟩

theorem plain_of_child {n : Node} (hn : n ∈ nodes) (child : some n.hierarchyId ∈ t.childIds) :
    n.formula = none ∧ n.total? = none := by
  obtain ⟨n', hn', same, formula, total⟩ := apart.known owner ho t ht _ child
  obtain rfl := List.inj_on_of_nodup_map h.hierarchyIds hn hn' (Option.some.inj same)
  exact ⟨formula, total⟩

/-- A node is looked up by the label of a total if it is a child, or if it is none of any total and
    its name is a child. -/
theorem childLabel?_eq_some_iff {n : Node} :
    (Sheet.ofNodes nodes options).childLabel? n = some t.groupName ↔
      some n.hierarchyId ∈ t.childIds ∨
      (∀ n' ∈ nodes, ∀ t' ∈ n'.total?, some n.hierarchyId ∉ t'.childIds) ∧
        some n.name ∈ t.childIds := by
  have unknown : (Sheet.ofNodes nodes options).childLabels.lookup n.hierarchyId = none ↔
      ∀ n' ∈ nodes, ∀ t' ∈ n'.total?, some n.hierarchyId ∉ t'.childIds := by
    rw [Option.eq_none_iff_forall_ne_some]
    constructor
    · intro absent n' hn' t' ht' isChild
      exact absent _ ((lookup_childLabels h apart).mpr ⟨n', hn', t', ht', isChild, rfl⟩)
    · intro absent label found
      obtain ⟨n', hn', t', ht', isChild, -⟩ := (lookup_childLabels h apart).mp found
      exact absent n' hn' t' ht' isChild
  rw [Sheet.childLabel?, Option.or_eq_some_iff, unknown, lookup_childLabels_eq h apart ho ht,
    lookup_childLabels_eq h apart ho ht]

/-- Besides its own node, the label of a total is carried by formulas, by its children, and by nodes
    that are looked up by their names. -/
theorem label_iff {n : Node} (hn : n ∈ nodes) :
    n ≠ owner ∧ t.groupName ∈ ((Sheet.ofNodes nodes options).labels n).map (·.1) ↔
      (∃ f ∈ n.formula, f.groupName = t.groupName) ∨ some n.hierarchyId ∈ t.childIds ∨
      n.formula = none ∧ n.total? = none ∧ some n.name ∈ t.childIds ∧
        ∀ n' ∈ nodes, ∀ t' ∈ n'.total?, some n.hierarchyId ∉ t'.childIds := by
  have untotalled : n.total? = none → n ≠ owner := by
    rintro total rfl
    rw [ht] at total
    cases total
  rw [Sheet.mem_labels_iff, childLabel?_eq_some_iff h apart ho ht]
  constructor
  · rintro ⟨other, formula | ⟨-, t', ht', same⟩ | ⟨formula, total, isChild | ⟨absent, named⟩⟩⟩
    · exact Or.inl formula
    · exact absurd (owner_of_label h apart ho ht hn ht' same) other
    · exact Or.inr (Or.inl isChild)
    · exact Or.inr (Or.inr ⟨formula, total, named, absent⟩)
  · rintro (⟨f, formula, same⟩ | isChild | ⟨formula, total, named, absent⟩)
    · refine ⟨?_, Or.inl ⟨f, formula, same⟩⟩
      rintro rfl
      rw [apart.alone n ho t ht] at formula
      cases formula
    · obtain ⟨formula, total⟩ := plain_of_child h apart ho ht hn isChild
      exact ⟨untotalled total, Or.inr (Or.inr ⟨formula, total, Or.inl isChild⟩)⟩
    · exact ⟨untotalled total, Or.inr (Or.inr ⟨formula, total, Or.inr ⟨absent, named⟩⟩)⟩

/-- Only its own node states the aggregation of a total. -/
theorem owner_of_aggregation {n : Node} (hn : n ∈ nodes) {a : Operation}
    (stated : (t.groupName, some a) ∈ (Sheet.ofNodes nodes options).labels n) : n = owner := by
  obtain ⟨-, t', ht', same, -⟩ := Sheet.mem_labels_aggregation_iff.mp stated
  exact owner_of_label h apart ho ht hn ht' same

/-- The stored total is a copy of the exported one exactly if no other node carries its label: no
    formula has it, and no node is looked up by its name. -/
theorem isCopy_total_made (plain : PlainLabels nodes) {w : Window} {project : String}
    {ids : List String} {made : List Node}
    (outcome : (plan nodes options w project).Outcome [] true [] ids made) {k i : Nat}
    (hq : (Sheet.ofNodes nodes options).written[k]? = some (i, owner)) {m : Node}
    (hm : made[k]? = some m) :
    (∃ t', m.total? = some t' ∧ t.IsCopy t') ↔ t.Unshared nodes ∧ t.Unnamed nodes := by
  have restored : ∀ {t' : Total}, m.total? = some t' → t'.groupName = t.groupName ∧
      t'.aggregation = t.aggregation ∧ ∀ c, c ∈ t'.childIds ↔ ∃ n ∈ nodes, c = some n.hierarchyId ∧
        n ≠ owner ∧ t.groupName ∈ ((Sheet.ofNodes nodes options).labels n).map (·.1) := by
    intro t' total
    obtain ⟨t₀, own, rest⟩ := total_of_made h outcome plain hq hm total
    obtain rfl := Option.some.inj (own.symm.trans ht)
    exact rest
  constructor
  · rintro ⟨t', total, copy⟩
    have isChild : ∀ n ∈ nodes, n ≠ owner ∧
        t.groupName ∈ ((Sheet.ofNodes nodes options).labels n).map (·.1) →
          some n.hierarchyId ∈ t.childIds := fun n hn carried =>
      (copy.children _).mp (((restored total).2.2 _).mpr ⟨n, hn, rfl, carried⟩)
    refine ⟨fun n hn f formula same => ?_, fun n hn formula none named => ?_⟩
    · have child := isChild n hn ((label_iff h apart ho ht hn).mpr (Or.inl ⟨f, formula, same⟩))
      rw [(plain_of_child h apart ho ht hn child).1] at formula
      cases formula
    · by_contra stray
      have absent : ∀ n' ∈ nodes, ∀ t' ∈ n'.total?, some n.hierarchyId ∉ t'.childIds :=
        fun n' hn' t' ht' isChild => stray ⟨n', hn', t', ht', isChild⟩
      exact absent owner ho t ht (isChild n hn ((label_iff h apart ho ht hn).mpr
        (Or.inr (Or.inr ⟨formula, none, named, absent⟩))))
  · rintro ⟨unshared, unnamed⟩
    have carriers : ∀ n ∈ nodes,
        n ≠ owner ∧ t.groupName ∈ ((Sheet.ofNodes nodes options).labels n).map (·.1) ↔
          some n.hierarchyId ∈ t.childIds := by
      intro n hn
      rw [label_iff h apart ho ht hn]
      constructor
      · rintro (⟨f, formula, same⟩ | isChild | ⟨formula, none, named, absent⟩)
        · exact absurd same (unshared n hn f formula)
        · exact isChild
        · obtain ⟨n', hn', t', ht', isChild⟩ := unnamed n hn formula none named
          exact absurd isChild (absent n' hn' t' ht')
      · exact fun isChild => Or.inr (Or.inl isChild)
    obtain ⟨child, mem⟩ := List.exists_mem_of_ne_nil _ (apart.nonempty owner ho t ht)
    obtain ⟨n, hn, same, -⟩ := apart.known owner ho t ht _ (List.mem_map_of_mem mem)
    have isChild : some n.hierarchyId ∈ t.childIds := same ▸ List.mem_map_of_mem mem
    obtain ⟨t', total⟩ := exists_total_made h outcome plain hq hm (apart.alone owner ho t ht) ht
      (fun n hn a stated => owner_of_aggregation h apart ho ht hn stated)
      ⟨n, hn, (carriers n hn).mpr isChild⟩
      (fun n hn => length_labels_le unshared hn)
    obtain ⟨label, aggregation, stored⟩ := restored total
    refine ⟨t', total, label, aggregation, fun c => (stored c).trans ⟨?_, fun mem => ?_⟩⟩
    · rintro ⟨n, hn, rfl, carried⟩
      exact (carriers n hn).mp carried
    · obtain ⟨n, hn, rfl, -⟩ := apart.known owner ho t ht c mem
      exact ⟨n, hn, rfl, (carriers n hn).mpr mem⟩

end Labels

/-! ## The round trip -/

/-- Importing an export into an empty project restores totals, unless nodes are looked up by their
    names: a stored node has a total only if the exported node has one, and it is a copy exactly if
    no formula has the label. -/
theorem total?_table {nodes : List Node} (h : Exportable nodes) (size : nodes.length < 2 ^ 63)
    (plain : PlainLabels nodes) (apart : TotalsApart nodes)
    (unnamed : ∀ n ∈ nodes, ∀ t ∈ n.total?, t.Unnamed nodes) (options : ExportOptions)
    (start : Literal.inRange options.syntheticXrefStart = true) (w : Window) {s : Store}
    {project : String} (known : s.hasProject project = true) (empty : s.nodesOf project = [])
    (ids : (s.nodes.map (·.id)).Nodup) :
    ∃ table s' summary, Table.ofText (hierarchy nodes options) = .ok table ∧
      Import.table .permissive s project .standard w table = .ok (s', summary) ∧
      (s'.nodesOf project).length = nodes.length ∧
      ∀ n ∈ nodes, ∃ m ∈ s'.nodesOf project, m.hierarchyId = n.hierarchyId ∧
        (∀ m' ∈ s'.nodesOf project, m'.hierarchyId = n.hierarchyId → m' = m) ∧
        (n.total? = none → m.total? = none) ∧
        ∀ t, n.total? = some t →
          ((∃ t', m.total? = some t' ∧ t.IsCopy t') ↔ t.Unshared nodes) := by
  have fits := keysFit_of_size options h.legible start size
  obtain ⟨ids', made, warnings, outcome, stored, run⟩ :=
    exists_outcome h fits w known empty ids
  refine ⟨_, _, _, ofText_hierarchy h.legible fits, run, by rw [stored, length_made h outcome], ?_⟩
  intro n hn
  rw [stored]
  obtain ⟨i, here⟩ := List.getElem?_of_mem hn
  obtain ⟨k, hq⟩ := List.getElem?_of_mem ((mem_written h options).mpr here)
  obtain ⟨m, id, number, before, hm, -⟩ := made_at h outcome hq
  have mem := List.mem_of_getElem? hm
  have copy := isCopy_made h outcome fits hq hm
  refine ⟨m, mem, copy.hierarchyId, fun m' hm' same => ?_, fun none => ?_, fun t ht => ?_⟩
  · exact List.inj_on_of_nodup_map (nodup_hierarchyId_made h outcome) hm' mem
      (same.trans copy.hierarchyId.symm)
  · rw [Option.eq_none_iff_forall_ne_some]
    intro t' total
    obtain ⟨t, own, -⟩ := total_of_made h outcome plain hq hm total
    exact absurd (none.symm.trans own) (by simp)
  · rw [isCopy_total_made h apart hn ht plain outcome hq hm,
      and_iff_left (unnamed n hn t ht)]

/-- Two totals. The label of the first one is also that of a formula; the second one is not shared. -/
def sharedLabel : List Node :=
  [{ id := "1", hierarchyId := "COSTS", projectId := "A", name := "Costs"
     filter := some { total := some ⟨"Costs", "Costs", .sum, [⟨some "RENT", "Rent"⟩]⟩ } },
   { id := "2", hierarchyId := "RENT", projectId := "A", name := "Rent" },
   { id := "3", hierarchyId := "RATIO", projectId := "A", name := "Ratio"
     formula := some ⟨"Costs", "RATIO", [⟨.divide, "RENT", 1, none⟩], none⟩ },
   { id := "4", hierarchyId := "SALES", projectId := "A", name := "Sales"
     filter := some { total := some ⟨"Sales", "Sales", .average, [⟨some "SHOP", "Shop"⟩]⟩ } },
   { id := "5", hierarchyId := "SHOP", projectId := "A", name := "Shop" }]

theorem exportable_sharedLabel : Exportable sharedLabel := by
  refine ⟨by decide +kernel, by decide +kernel, by decide +kernel,
    acyclic_of_rank (fun _ => 0) (by simp [sharedLabel]), by decide +kernel, ?_⟩
  intro n hn
  simp only [sharedLabel, List.mem_cons, List.not_mem_nil, or_false] at hn
  rcases hn with rfl | rfl | rfl | rfl | rfl <;>
    exact ⟨by decide +kernel, by decide +kernel, by decide +kernel, by simp, by decide, by simp,
      by simp, by simp [Dict.keys], by simp [Dict.Ordered, Dict.keys], by decide, by decide,
      by decide, by decide, by decide⟩

theorem plainLabels_sharedLabel : PlainLabels sharedLabel :=
  ⟨by decide +kernel, by decide +kernel⟩

theorem totalsApart_sharedLabel : TotalsApart sharedLabel :=
  ⟨by decide +kernel, by decide +kernel, by decide +kernel, by decide +kernel, by decide +kernel⟩

theorem total?_table_sharedLabel : ∃ table s' summary,
    Table.ofText (hierarchy sharedLabel {}) = .ok table ∧
      Import.table .permissive { projects := [⟨"B", "B"⟩] } "B" .standard .standard table =
        .ok (s', summary) ∧
      ∃ m ∈ s'.nodesOf "B", m.hierarchyId = "SALES" ∧
        ∃ t, m.total? = some t ∧ t.groupName = "Sales" ∧ t.aggregation = .average ∧
          ∀ c, c ∈ t.childIds ↔ c = some "SHOP" := by
  obtain ⟨table, s', summary, read, run, -, restored⟩ := total?_table exportable_sharedLabel
    (by decide) plainLabels_sharedLabel totalsApart_sharedLabel
    (by decide +kernel) {} (by decide) .standard
    (show Store.hasProject { projects := [⟨"B", "B"⟩] } "B" = true from rfl) rfl List.nodup_nil
  obtain ⟨m, mem, id, -, -, copied⟩ := restored _ (List.mem_of_getElem? (i := 3) rfl)
  obtain ⟨t, total, copy⟩ := (copied _ rfl).mpr (by decide +kernel)
  refine ⟨table, s', summary, read, run, m, mem, id, t, total, copy.groupName, copy.aggregation,
    fun c => ?_⟩
  rw [copy.children]
  exact List.mem_singleton

theorem total?_sharedLabel : Exportable sharedLabel ∧ PlainLabels sharedLabel ∧
    TotalsApart sharedLabel ∧ ∃ table s' summary,
      Table.ofText (hierarchy sharedLabel {}) = .ok table ∧
      Import.table .permissive { projects := [⟨"B", "B"⟩] } "B" .standard .standard table =
        .ok (s', summary) ∧
      ∃ n ∈ sharedLabel, ∃ t, n.total? = some t ∧ t.childIds = [some "RENT"] ∧
        ∃ m ∈ s'.nodesOf "B", m.hierarchyId = n.hierarchyId ∧
          ∃ t', m.total? = some t' ∧ some "RATIO" ∈ t'.childIds := by
  have h := exportable_sharedLabel
  have plain := plainLabels_sharedLabel
  have apart := totalsApart_sharedLabel
  have fits := keysFit_of_size {} h.legible (by decide) (by decide)
  obtain ⟨ids, made, warnings, outcome, stored, run⟩ := exists_outcome h fits
    .standard (show Store.hasProject { projects := [⟨"B", "B"⟩] } "B" = true from rfl) rfl List.nodup_nil
  have ho := List.mem_of_getElem? (l := sharedLabel) (i := 0) rfl
  have carriers : ∀ {n : Node}, n ∈ sharedLabel → (n ≠ _ ∧
      _ ∈ ((Sheet.ofNodes sharedLabel {}).labels n).map (·.1) ↔ _) := label_iff h apart ho rfl
  obtain ⟨k, hq⟩ := List.getElem?_of_mem ((mem_written h {} (i := 0)).mpr rfl)
  obtain ⟨m, -, -, -, hm, -⟩ := made_at h outcome hq
  have rent := List.mem_of_getElem? (l := sharedLabel) (i := 1) rfl
  obtain ⟨t', total⟩ := exists_total_made h outcome plain hq hm rfl rfl
    (fun n hn a stated => owner_of_aggregation h apart ho rfl hn stated)
    ⟨_, rent, (carriers rent).mpr (Or.inr (Or.inl (by decide)))⟩ (by decide +kernel)
  obtain ⟨t, own, -, -, children⟩ := total_of_made h outcome plain hq hm total
  cases own
  refine ⟨h, plain, apart, _, _, _, ofText_hierarchy h.legible fits, run, _, ho, _, rfl, rfl, m, ?_,
    (isCopy_made h outcome fits hq hm).hierarchyId, t', total, (children _).mpr ?_⟩
  · rw [stored]
    exact List.mem_of_getElem? hm
  · have ratio := List.mem_of_getElem? (l := sharedLabel) (i := 2) rfl
    exact ⟨_, ratio, rfl, (carriers ratio).mpr (Or.inl ⟨_, rfl, rfl⟩)⟩

end Export

end Rollup

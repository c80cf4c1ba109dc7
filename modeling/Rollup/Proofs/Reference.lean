import Mathlib.Data.List.Basic
import Mathlib.Tactic.SplitIfs
import Rollup.Proofs.Dict
import Rollup.Reference
import Rollup.Store

/-!
# What resolving references changes

Resolving replaces the operands of rules and the ids of the children of totals, and nothing else
of a node. Where hierarchy ids are trimmed, one pass is enough: what was replaced is an id
afterwards, and what was not is looked up in vain again.

Results:

* `outline_resolveNode`: a node keeps everything but its formula and its total.
* `resolveNode_again`: a node with the parts of a resolved one has nothing left to resolve, and
  gives the same warnings.
* `childrenIn_resolveNode`: the children of totals stay among given ids.
-/

namespace Rollup

theorem Value.get?_keptFields (k : String) (fields : List (String × Value)) :
    Dict.get? k (keptFields fields) = (Dict.get? k fields).map Value.kept := by
  induction fields with
  | nil => rfl
  | cons q fields ih =>
    obtain ⟨j, v⟩ := q
    by_cases same : j = k
    · simp [keptFields, Dict.get?, same]
    · simp only [keptFields, Dict.get?, List.find?_cons, beq_eq_false_iff_ne.mpr same] at ih ⊢
      exact ih

namespace Node

/-- The values of the filter groups of a node. -/
def filterGroups (n : Node) : Dict String :=
  (n.filter.map (·.groups)).getD []

/-- A node without its formula and its total. -/
def outline (n : Node) : Node :=
  { n with formula := none, filter := some { groups := n.filterGroups } }

theorem filterGroups_kept (n : Node) : n.kept.filterGroups = n.filterGroups := by
  have eq : n.kept.filterGroups = ((n.filter.filter (!·.isEmpty)).map (·.groups)).getD [] := rfl
  rw [eq, filterGroups]
  cases n.filter with
  | none => rfl
  | some f =>
    by_cases h : f.isEmpty = true
    · have groups : f.groups = [] := by
        rw [Filter.isEmpty, Bool.and_eq_true] at h
        exact List.isEmpty_iff.mp h.1
      simp [Option.filter, h, groups]
    · simp [Option.filter, h]

theorem total?_kept (n : Node) : n.kept.total? = n.total? := by
  have eq : n.kept.total? = (n.filter.filter (!·.isEmpty)).bind (·.total) := rfl
  rw [eq, total?]
  cases n.filter with
  | none => rfl
  | some f =>
    by_cases h : f.isEmpty = true
    · have total : f.total = none := by
        rw [Filter.isEmpty, Bool.and_eq_true] at h
        exact Option.isNone_iff_eq_none.mp h.2
      simp [Option.filter, h, total]
    · simp [Option.filter, h]

theorem isPlaceholder_kept (n : Node) : n.kept.isPlaceholder = n.isPlaceholder := by
  have bool : ∀ v : Value, v.kept.bool? = v.bool? := by
    intro v
    cases v <;> rfl
  have eq : n.kept.isPlaceholder = (placeholderMark.toList.isPrefixOf n.hierarchyId.toList ||
      ((Dict.get? placeholderKey (Value.keptFields n.metadata)).bind Value.bool?).getD false) := rfl
  rw [eq, isPlaceholder, Value.get?_keptFields]
  cases Dict.get? placeholderKey n.metadata with
  | none => rfl
  | some v => rw [Option.map_some, Option.bind_some, Option.bind_some, bool]

/-- Every child of the total of a node carries one of the given hierarchy ids. -/
def ChildrenIn (ids : List String) (n : Node) : Prop :=
  ∀ t, n.total? = some t → ∀ c ∈ t.children, ∃ h ∈ ids, c.hierarchyId = some h

theorem childrenIn_kept {ids : List String} {n : Node} (h : n.ChildrenIn ids) :
    n.kept.ChildrenIn ids := by
  intro t ht
  rw [total?_kept] at ht
  exact h t ht

end Node

/-! ## Counting -/

namespace Resolved

variable {α : Type}

/-- A second outcome of resolving that replaces nothing and gives the warnings of a first one. -/
structure Repeats (second first : Resolved α) : Prop where
  count : second.count = 0
  warnings : second.warnings = first.warnings

theorem foldl_add_eq_zero_iff (ns : List Nat) : ∀ start : Nat,
    ns.foldl (· + ·) start = 0 ↔ start = 0 ∧ ∀ n ∈ ns, n = 0 := by
  induction ns with
  | nil => intro start; simp
  | cons n ns ih =>
    intro start
    rw [List.foldl_cons, ih, Nat.add_eq_zero_iff, List.forall_mem_cons, and_assoc]

theorem count_all_eq_zero_iff {f : α → Resolved α} {xs : List α} :
    (all f xs).count = 0 ↔ ∀ a ∈ xs, (f a).count = 0 := by
  rw [all, foldl_add_eq_zero_iff]
  simp

/-- The elements of a list are resolved again one by one, whatever happened to them in between. -/
theorem repeats_all (f : α → Resolved α) (g : α → α) (xs : List α)
    (again : ∀ a ∈ xs, (f (g (f a).value)).Repeats (f a)) :
    (all f ((all f xs).value.map g)).Repeats (all f xs) := by
  constructor
  · refine count_all_eq_zero_iff.mpr fun b hb => ?_
    obtain ⟨v, hv, rfl⟩ := List.mem_map.mp hb
    obtain ⟨r, hr, rfl⟩ := List.mem_map.mp hv
    obtain ⟨a, ha, rfl⟩ := List.mem_map.mp hr
    exact (again a ha).count
  · simp only [all, List.map_map, List.flatMap_map]
    exact List.flatMap_congr fun a ha => (again a ha).warnings

theorem value_all_of_same {f : α → Resolved α} {xs : List α} (same : ∀ a ∈ xs, (f a).value = a) :
    (all f xs).value = xs := by
  rw [all]
  dsimp only
  rw [List.map_map]
  exact (List.map_congr_left same).trans (List.map_id _)

end Resolved

namespace Directory

variable (d : Directory)

/-! ## What stays -/

theorem filterGroups_resolveNode (n : Node) :
    (d.resolveNode n).value.filterGroups = n.filterGroups := by
  have eq : (d.resolveNode n).value.filterGroups =
      ((resolveOption (d.resolveFilter n.hierarchyId) n.filter).value.map (·.groups)).getD [] := rfl
  rw [eq, Node.filterGroups]
  cases n.filter <;> rfl

/-- A node keeps everything but its formula and its total. -/
theorem outline_resolveNode (n : Node) : (d.resolveNode n).value.outline = n.outline := by
  have eq : (d.resolveNode n).value.outline = { n with
      formula := none
      filter := some { groups := (d.resolveNode n).value.filterGroups } } := rfl
  rw [eq, filterGroups_resolveNode]
  rfl

/-- The total of a node is resolved on its own. -/
theorem total?_resolveNode (n : Node) : (d.resolveNode n).value.total? =
    n.total?.map fun t => (d.resolveTotal n.hierarchyId t).value := by
  have eq : (d.resolveNode n).value.total? =
      (resolveOption (d.resolveFilter n.hierarchyId) n.filter).value.bind (·.total) := rfl
  rw [eq, Node.total?]
  cases n.filter with
  | none => rfl
  | some f =>
    have inner : (resolveOption (d.resolveFilter n.hierarchyId) (some f)).value.bind (·.total) =
      (resolveOption (d.resolveTotal n.hierarchyId) f.total).value := rfl
    rw [inner, Option.bind_some]
    cases f.total <;> rfl

@[simp] theorem resolveNode_id (n : Node) : (d.resolveNode n).value.id = n.id := rfl
@[simp] theorem resolveNode_hierarchyId (n : Node) :
    (d.resolveNode n).value.hierarchyId = n.hierarchyId := rfl
@[simp] theorem resolveNode_projectId (n : Node) :
    (d.resolveNode n).value.projectId = n.projectId := rfl

/-! ## Nothing is left -/

/-- The hierarchy ids of the directory are trimmed. -/
def Trimmed (d : Directory) : Prop :=
  ∀ r ∈ d, Text.trim r.hierarchyId = r.hierarchyId

theorem hasId_iff {h : String} : d.hasId h = true ↔ h ∈ d.map (·.hierarchyId) := by
  simp [hasId]

theorem hasId_of_mem_candidates {reference h : String} (mem : h ∈ d.candidates reference) :
    d.hasId h = true := by
  have fromPick : ∀ pick : Referent → Bool,
      h ∈ Dict.sortedDistinct ((d.filter pick).map (·.hierarchyId)) → d.hasId h = true := by
    intro pick mem
    obtain ⟨r, hr, rfl⟩ := List.mem_map.mp (Dict.mem_sortedDistinct.mp mem)
    exact d.hasId_iff.mpr (List.mem_map_of_mem (List.mem_of_mem_filter hr))
  unfold candidates at mem
  dsimp only at mem
  split at mem
  · exact fromPick _ mem
  · exact fromPick _ mem

theorem hasId_of_lookup {reference h : String} (found : d.lookup reference = .resolved h) :
    d.hasId h = true := by
  unfold lookup at found
  dsimp only at found
  split_ifs at found
  split at found
  · cases found
  · rename_i h' one
    cases found
    exact d.hasId_of_mem_candidates (one ▸ List.mem_singleton_self _)
  · cases found

theorem hasId_of_lookup_alreadyId {reference : String} (found : d.lookup reference = .alreadyId) :
    d.hasId (Text.trim reference) = true := by
  unfold lookup at found
  dsimp only at found
  split_ifs at found with known
  · exact known
  · split at found <;> cases found

theorem lookup_of_hasId {d : Directory} (trimmed : d.Trimmed) {h : String}
    (known : d.hasId h = true) : d.lookup h = .alreadyId := by
  obtain ⟨r, hr, rfl⟩ := List.mem_map.mp (d.hasId_iff.mp known)
  rw [lookup, trimmed r hr, if_pos known]

/-- Operands that are empty or the ids of nodes need no replacement. -/
theorem value_resolveFormula_of_known {d : Directory} (trimmed : d.Trimmed) (owner : String) {f : Formula}
    (known : ∀ r ∈ f.rules, r.operand = "" ∨ d.hasId r.operand = true) :
    (d.resolveFormula owner f).value = f := by
  have rules : (Resolved.all (d.resolveRule owner) f.rules).value = f.rules := by
    refine Resolved.value_all_of_same fun r hr => ?_
    unfold resolveRule
    rcases known r hr with empty | known
    · rw [empty, if_pos (by decide)]
      rfl
    · rw [lookup_of_hasId trimmed known]
      split <;> rfl
  rw [resolveFormula]
  dsimp only
  rw [rules]

/-- Children with the ids of nodes need no replacement. -/
theorem value_resolveTotal_of_known {d : Directory} (owner : String) {t : Total}
    (known : ∀ c ∈ t.children, c.hierarchyId.any d.hasId = true) :
    (d.resolveTotal owner t).value = t := by
  have children : (Resolved.all (d.resolveChild owner) t.children).value = t.children := by
    refine Resolved.value_all_of_same fun c hc => ?_
    rw [resolveChild, if_pos (known c hc)]
    rfl
  rw [resolveTotal]
  dsimp only
  rw [children]

/-- The operand of a resolved rule needs no replacement. -/
theorem repeats_resolveRule {d : Directory} (trimmed : d.Trimmed) {owner : String} {r s : Rule}
    (same : s.operand = (d.resolveRule owner r).value.operand) :
    (d.resolveRule owner s).Repeats (d.resolveRule owner r) := by
  by_cases blank : Text.isAllBlank r.operand = true
  · have first : d.resolveRule owner r = .same r := if_pos blank
    rw [first] at same ⊢
    have second : d.resolveRule owner s = .same s :=
      if_pos (show Text.isAllBlank s.operand = true by rw [same]; exact blank)
    rw [second]
    exact ⟨rfl, rfl⟩
  · unfold resolveRule at same ⊢
    rw [if_neg blank] at same ⊢
    cases found : d.lookup r.operand with
    | resolved h =>
      rw [found] at same
      have second : d.lookup s.operand = .alreadyId := by
        rw [show s.operand = h from same]
        exact lookup_of_hasId trimmed (d.hasId_of_lookup found)
      rw [second]
      split_ifs <;> exact ⟨rfl, rfl⟩
    | alreadyId =>
      rw [found] at same
      rw [show s.operand = r.operand from same, if_neg blank, found]
      exact ⟨rfl, rfl⟩
    | ambiguous ids =>
      rw [found] at same
      rw [show s.operand = r.operand from same, if_neg blank, found]
      exact ⟨rfl, rfl⟩
    | unresolved =>
      rw [found] at same
      rw [show s.operand = r.operand from same, if_neg blank, found]
      exact ⟨rfl, rfl⟩

/-- A child after resolving: as it was, or with the id of a node and without a warning. -/
theorem resolveChild_cases (owner : String) (c : TotalChild) :
    ((d.resolveChild owner c).count = 0 ∧ (d.resolveChild owner c).value = c) ∨
      (d.resolveChild owner c).warnings = [] ∧ ∃ h, d.hasId h = true ∧
        (d.resolveChild owner c).value = { c with hierarchyId := some h } := by
  unfold resolveChild
  split_ifs
  · exact Or.inl ⟨rfl, rfl⟩
  · cases found : d.lookup c.name with
    | alreadyId => exact Or.inr ⟨rfl, _, d.hasId_of_lookup_alreadyId found, rfl⟩
    | resolved h => exact Or.inr ⟨rfl, h, d.hasId_of_lookup found, rfl⟩
    | ambiguous ids => exact Or.inl ⟨rfl, rfl⟩
    | unresolved => exact Or.inl ⟨rfl, rfl⟩

/-- A resolved child needs no replacement. -/
theorem repeats_resolveChild (owner : String) (c : TotalChild) :
    (d.resolveChild owner (d.resolveChild owner c).value).Repeats (d.resolveChild owner c) := by
  rcases d.resolveChild_cases owner c with ⟨none, same⟩ | ⟨silent, h, known, eq⟩
  · rw [same]
    exact ⟨none, rfl⟩
  · have second : d.resolveChild owner (d.resolveChild owner c).value =
        .same (d.resolveChild owner c).value := by
      rw [eq, resolveChild, if_pos (by simpa using known)]
    rw [second]
    exact ⟨rfl, silent.symm⟩

/-- What is replaced in a node, and the warnings about it: those of its formula and its total. -/
theorem resolveNode_parts (n : Node) :
    (d.resolveNode n).count = (resolveOption (d.resolveFormula n.hierarchyId) n.formula).count +
        (resolveOption (d.resolveTotal n.hierarchyId) n.total?).count ∧
      (d.resolveNode n).warnings =
        (resolveOption (d.resolveFormula n.hierarchyId) n.formula).warnings ++
          (resolveOption (d.resolveTotal n.hierarchyId) n.total?).warnings := by
  unfold resolveNode Node.total?
  cases n.filter with
  | none => exact ⟨rfl, rfl⟩
  | some f => exact ⟨rfl, rfl⟩

/-- A node with the parts of a resolved one has nothing left to resolve, and gives the same
    warnings. -/
theorem resolveNode_again {d : Directory} (trimmed : d.Trimmed) {n m : Node}
    (key : m.hierarchyId = n.hierarchyId)
    (formula : m.formula = (d.resolveNode n).value.formula.map Formula.kept)
    (total : m.total? = (d.resolveNode n).value.total?) :
    (d.resolveNode m).Repeats (d.resolveNode n) := by
  have formulas : (resolveOption (d.resolveFormula n.hierarchyId) m.formula).Repeats
      (resolveOption (d.resolveFormula n.hierarchyId) n.formula) := by
    rw [show (d.resolveNode n).value.formula =
      (resolveOption (d.resolveFormula n.hierarchyId) n.formula).value from rfl] at formula
    rw [formula]
    cases n.formula with
    | none => exact ⟨rfl, rfl⟩
    | some f =>
      have rules := Resolved.repeats_all (d.resolveRule n.hierarchyId)
        (fun r => { r with constant := r.constant.map Binary64.kept }) f.rules
        fun r _ => repeats_resolveRule trimmed rfl
      exact ⟨rules.count, rules.warnings⟩
  have totals : (resolveOption (d.resolveTotal n.hierarchyId) m.total?).Repeats
      (resolveOption (d.resolveTotal n.hierarchyId) n.total?) := by
    rw [total, total?_resolveNode]
    cases n.total? with
    | none => exact ⟨rfl, rfl⟩
    | some t =>
      have children := Resolved.repeats_all (d.resolveChild n.hierarchyId) id t.children
        fun c _ => d.repeats_resolveChild n.hierarchyId c
      rw [List.map_id] at children
      exact ⟨children.count, children.warnings⟩
  obtain ⟨count, warnings⟩ := d.resolveNode_parts m
  rw [key] at count warnings
  constructor
  · rw [count, formulas.count, totals.count]
  · rw [warnings, formulas.warnings, totals.warnings, (d.resolveNode_parts n).2]

/-! ## Children of totals -/

/-- The children of totals stay among given ids, if those of the directory are among them. -/
theorem childrenIn_resolveNode {ids : List String} {n : Node} (h : n.ChildrenIn ids)
    (within : ∀ r ∈ d, r.hierarchyId ∈ ids) : (d.resolveNode n).value.ChildrenIn ids := by
  intro t ht c hc
  rw [total?_resolveNode] at ht
  obtain ⟨t₀, own, rfl⟩ := Option.map_eq_some_iff.mp ht
  obtain ⟨x, hx, rfl⟩ := List.mem_map.mp hc
  obtain ⟨c₀, hc₀, rfl⟩ := List.mem_map.mp hx
  rcases d.resolveChild_cases n.hierarchyId c₀ with ⟨-, same⟩ | ⟨-, k, known, eq⟩
  · rw [same]
    exact h t₀ own c₀ hc₀
  · obtain ⟨r, hr, hk⟩ := List.mem_map.mp (d.hasId_iff.mp known)
    exact ⟨k, hk ▸ within r hr, by rw [eq]⟩

end Directory

end Rollup

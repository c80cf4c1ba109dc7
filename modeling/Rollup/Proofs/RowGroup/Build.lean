import Mathlib.Data.List.Forall2
import Rollup.Proofs.Dict
import Rollup.RowGroup.Build

/-!
# What the node of a group takes from its rows

Results:

* `get?_firstEntries`: of several entries with one key the first one counts.
* `firstOf_of_agree`, `firstEntries_of_agree`, `mergedCustomFlags_of_agree`: where all rows say the
  same, the node takes that.
* `formula?_of_alike`: the formula depends on the numbers and the formula parts of the rows only.
-/

namespace Rollup

theorem Dict.get?_insertNew {α : Type} (k j : String) (v : α) (d : Dict α) :
    get? j (insertNew k v d) = (get? j d).or (if j = k then some v else none) := by
  unfold insertNew
  by_cases known : (get? k d).isSome = true
  · rw [if_pos known]
    by_cases same : j = k
    · obtain ⟨u, hu⟩ := Option.isSome_iff_exists.mp known
      rw [same, hu, Option.some_or]
    · rw [if_neg same, Option.or_none]
  · rw [if_neg known, get?_insert]
    by_cases same : j = k
    · rw [if_pos same, same, Option.not_isSome_iff_eq_none.mp known, if_pos rfl, Option.none_or]
    · rw [if_neg same, if_neg same, Option.or_none]

namespace RowGroup

/-- Of several entries with one key the first one counts. -/
theorem get?_firstEntries {α : Type} (entries : List (String × α)) (k : String) :
    Dict.get? k (firstEntries entries) = entries.lookup k := by
  have run : ∀ (entries : List (String × α)) (d : Dict α),
      Dict.get? k (entries.foldl (fun d p => Dict.insertNew p.1 p.2 d) d) =
        (Dict.get? k d).or (entries.lookup k) := by
    intro entries
    induction entries with
    | nil => intro d; rw [List.foldl_nil, List.lookup_nil, Option.or_none]
    | cons p entries ih =>
      intro d
      rw [List.foldl_cons, ih, Dict.get?_insertNew, Option.or_assoc, List.lookup_cons]
      by_cases same : k = p.1
      · rw [if_pos same, same, beq_self_eq_true, Option.some_or]
      · rw [if_neg same, beq_eq_false_iff_ne.mpr same, Option.none_or]
  exact run entries []

theorem ordered_firstEntries {α : Type} (entries : List (String × α)) :
    Dict.Ordered (firstEntries entries) := by
  have run : ∀ (entries : List (String × α)) (d : Dict α), Dict.Ordered d →
      Dict.Ordered (entries.foldl (fun d p => Dict.insertNew p.1 p.2 d) d) := by
    intro entries
    induction entries with
    | nil => intro d h; exact h
    | cons p entries ih =>
      intro d h
      rw [List.foldl_cons]
      refine ih _ ?_
      unfold Dict.insertNew
      split
      · exact h
      · exact Dict.ordered_insert h _ _
  exact run entries [] List.Pairwise.nil

theorem mem_of_mem_firstEntries {α : Type} {entries : List (String × α)} {q : String × α}
    (h : q ∈ firstEntries entries) : q ∈ entries := by
  have run : ∀ (entries : List (String × α)) (d : Dict α),
      q ∈ entries.foldl (fun d p => Dict.insertNew p.1 p.2 d) d → q ∈ entries ∨ q ∈ d := by
    intro entries
    induction entries with
    | nil => intro d h; exact Or.inr h
    | cons p entries ih =>
      intro d h
      rcases ih _ h with h | h
      · exact Or.inl (List.mem_cons_of_mem _ h)
      · dsimp only [Dict.insertNew] at h
        split at h
        · exact Or.inr h
        · rcases Dict.mem_of_mem_insert h with rfl | h
          · exact Or.inl List.mem_cons_self
          · exact Or.inr h
  exact (run entries [] h).resolve_right (by simp)

/-! ## Rows that agree -/

section Agree

variable {g : RowGroup}

theorem firstOf_of_agree {α : Type} {pick : HierarchyRow → Option α} {c : Option α}
    (agree : ∀ row ∈ g.rows, pick row = c) : g.firstOf pick = c := by
  unfold firstOf
  cases c with
  | none => exact List.findSome?_eq_none_iff.mpr agree
  | some a => rw [rows, List.findSome?_cons, agree g.leader (by simp [rows])]

theorem firstEntries_of_agree {α : Type} {pick : HierarchyRow → Dict α} {d : Dict α}
    (ordered : Dict.Ordered d) (agree : ∀ row ∈ g.rows, pick row = d) :
    firstEntries (g.rows.flatMap pick) = d := by
  refine Dict.ext_get? (ordered_firstEntries _) ordered fun k => ?_
  rw [get?_firstEntries, Dict.get?_eq_lookup]
  -- the entries are those of the leading row, followed by repeats
  have later : ∀ rows : List HierarchyRow, (∀ row ∈ rows, pick row = d) →
      (d.lookup k).or ((rows.flatMap pick).lookup k) = d.lookup k := by
    intro rows
    induction rows with
    | nil => intro _; rw [List.flatMap_nil, List.lookup_nil, Option.or_none]
    | cons row rows ih =>
      intro agree
      rw [List.flatMap_cons, List.lookup_append, agree row (by simp), ← Option.or_assoc,
        Option.or_self]
      exact ih fun r hr => agree r (by simp [hr])
  rw [rows, List.flatMap_cons, List.lookup_append, agree g.leader (by simp [rows])]
  exact later g.others fun row hrow => agree row (by simp [rows, hrow])

theorem set_of_kept {k : String} (kept : CustomFlags.key k = k) (filled : k ≠ "") {v : Bool}
    {flags : CustomFlags} : (if (CustomFlags.get? k flags).isNone then CustomFlags.set k v flags
      else flags) = Dict.insertNew k v flags := by
  rw [CustomFlags.get?, CustomFlags.set, Dict.insertNew, kept, if_neg filled]
  cases Dict.get? k flags <;> simp

/-- Custom flags that are kept under their own names are entries like any other. -/
theorem mergedCustomFlags_of_agree {d : CustomFlags} (ordered : Dict.Ordered d)
    (named : ∀ k ∈ Dict.keys d, CustomFlags.key k = k ∧ k ≠ "")
    (agree : ∀ row ∈ g.rows, row.customFlags = d) : g.mergedCustomFlags = d := by
  have entries : ∀ p ∈ g.rows.flatMap (·.customFlags),
      CustomFlags.key p.1 = p.1 ∧ p.1 ≠ "" := by
    intro p hp
    obtain ⟨row, hrow, hp⟩ := List.mem_flatMap.mp hp
    rw [agree row hrow] at hp
    exact named p.1 (List.mem_map_of_mem hp)
  have step : ∀ (pairs : List (String × Bool)) (flags : CustomFlags),
      (∀ p ∈ pairs, CustomFlags.key p.1 = p.1 ∧ p.1 ≠ "") →
      pairs.foldl (fun flags p => if (CustomFlags.get? p.1 flags).isNone then
        CustomFlags.set p.1 p.2 flags else flags) flags =
      pairs.foldl (fun d p => Dict.insertNew p.1 p.2 d) flags := by
    intro pairs
    induction pairs with
    | nil => intro _ _; rw [List.foldl_nil, List.foldl_nil]
    | cons p pairs ih =>
      intro flags named
      obtain ⟨kept, filled⟩ := named p List.mem_cons_self
      rw [List.foldl_cons, List.foldl_cons, set_of_kept kept filled,
        ih _ fun q hq => named q (List.mem_cons_of_mem _ hq)]
  unfold mergedCustomFlags
  rw [step _ _ entries]
  exact firstEntries_of_agree ordered agree

theorem mergedMappings_of_none (none : ∀ row ∈ g.rows, row.mapping = none) :
    g.mergedMappings = [] := by
  unfold mergedMappings
  generalize g.rows = rows at none ⊢
  induction rows with
  | nil => rfl
  | cons row rows ih =>
    rw [List.foldl_cons, none row (by simp)]
    exact ih fun r hr => none r (by simp [hr])

end Agree

end RowGroup

/-! ## Rows that are alike -/

/-- Two rows have the number, the keys and the formula part in common. They can differ in all that
    a node takes over as text. -/
structure HierarchyRow.Alike (a b : HierarchyRow) : Prop where
  number : b.number = a.number
  hierarchyId : b.hierarchyId = a.hierarchyId
  xrefKey : b.xrefKey = a.xrefKey
  formula : b.formula = a.formula

/-- Of rows that are alike, the same ones lead. -/
theorem HierarchyRow.Alike.leads {a b a' b' : HierarchyRow} (ha : a.Alike a') (hb : b.Alike b') :
    a'.leads b' = a.leads b := by
  unfold HierarchyRow.leads
  rw [ha.xrefKey, hb.xrefKey, ha.number, hb.number]

theorem pairwise_leads_of_alike {rows rows' : List HierarchyRow}
    (alike : List.Forall₂ HierarchyRow.Alike rows rows')
    (led : rows.Pairwise fun a b => a.leads b = true) :
    rows'.Pairwise fun a b => a.leads b = true := by
  rw [List.pairwise_iff_getElem] at led ⊢
  obtain ⟨length, each⟩ := List.forall₂_iff_get.mp alike
  intro i j hi hj less
  have same := (each i (length ▸ hi) hi).leads (each j (length ▸ hj) hj)
  exact same.trans (led i j (length ▸ hi) (length ▸ hj) less)

/-- Rows that are alike have the same ids. -/
theorem map_hierarchyId_of_alike {rows rows' : List HierarchyRow}
    (alike : List.Forall₂ HierarchyRow.Alike rows rows') :
    rows'.map (·.hierarchyId) = rows.map (·.hierarchyId) := by
  induction alike with
  | nil => rfl
  | cons head tail ih => rw [List.map_cons, List.map_cons, head.hierarchyId, ih]

theorem filter_hierarchyId_of_alike {rows rows' : List HierarchyRow}
    (alike : List.Forall₂ HierarchyRow.Alike rows rows') (id : String) :
    List.Forall₂ HierarchyRow.Alike (rows.filter (·.hierarchyId = some id))
      (rows'.filter (·.hierarchyId = some id)) := by
  refine List.rel_filter (fun a b ab => ?_) alike
  change decide (a.hierarchyId = some id) = true ↔ decide (b.hierarchyId = some id) = true
  rw [ab.hierarchyId]

namespace RowGroup

theorem addRules_of_alike {a b : HierarchyRow} (alike : a.Alike b)
    (acc : List Rule × List String) : addRules acc b = addRules acc a := by
  unfold addRules ruleAt
  rw [alike.formula, alike.number]

section Alike

variable {g g' : RowGroup} (alike : List.Forall₂ HierarchyRow.Alike g.rows g'.rows)

include alike

theorem rules_of_alike : g'.rules = g.rules := by
  have run : ∀ {rows rows' : List HierarchyRow}, List.Forall₂ HierarchyRow.Alike rows rows' →
      ∀ acc, rows'.foldl addRules acc = rows.foldl addRules acc := by
    intro rows rows' alike
    induction alike with
    | nil => intro acc; rfl
    | cons head tail ih => intro acc; rw [List.foldl_cons, List.foldl_cons, addRules_of_alike head, ih]
  exact run alike _

theorem firstOf_of_alike {α : Type} (pick : RowFormula → Option α) :
    g'.firstOf (pick ·.formula) = g.firstOf (pick ·.formula) := by
  have run : ∀ {rows rows' : List HierarchyRow}, List.Forall₂ HierarchyRow.Alike rows rows' →
      rows'.findSome? (pick ·.formula) = rows.findSome? (pick ·.formula) := by
    intro rows rows' alike
    induction alike with
    | nil => rfl
    | cons head tail ih => rw [List.findSome?_cons, List.findSome?_cons, head.formula, ih]
  exact run alike

/-- Groups of rows that are alike have the same formula, if a row names it. -/
theorem formula?_of_alike (same : g'.hierarchyId = g.hierarchyId)
    (labelled : (g.firstOf (·.formula.groupName)).isSome = true) : g'.formula? = g.formula? := by
  obtain ⟨label, found⟩ := Option.isSome_iff_exists.mp labelled
  unfold formula?
  dsimp only
  rw [firstOf_of_alike alike (·.groupName), firstOf_of_alike alike (·.expression),
    rules_of_alike alike, same, found, Option.getD_some, Option.getD_some]

end Alike

end RowGroup

end Rollup

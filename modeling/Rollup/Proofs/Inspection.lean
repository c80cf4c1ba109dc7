import Mathlib.Data.List.Basic
import Mathlib.Logic.Relation
import Mathlib.Tactic.SplitIfs
import Rollup.Inspection
import Rollup.Proofs.Forest
import Rollup.Proofs.Store.WellFormed

/-!
# What the inspection reports

Every check reports findings of its own kind, so circular references are reported by the walk along
parent links alone. A walk comes back to its own path only if some node is its own ancestor.

Results:

* `kind_check`: the findings of a check have its kind.
* `mem_inspect_iff`: the findings of a kind are those of its check.
* `cycles_eq_nil`: without cycles of parent links the walk finds none.
* `not_circular_of_wellFormed`: in a well-formed store no circular reference is reported.
-/

namespace Rollup

/-! ## Kinds of findings -/

namespace Check

theorem kind_cycles {f : Forest} {x : Finding} (h : x ∈ cycles f) :
    x.kind = .circularReference := by
  obtain ⟨c, -, rfl⟩ := List.mem_map.mp h
  rfl

theorem kind_missingMappings {f : Forest} {x : Finding} (h : x ∈ missingMappings f) :
    x.kind = .missingMapping := by
  obtain ⟨q, -, hx⟩ := List.mem_filterMap.mp h
  dsimp only at hx
  split_ifs at hx
  cases hx
  rfl

theorem kind_typeMismatches {f : Forest} {x : Finding} (h : x ∈ typeMismatches f) :
    x.kind = .typeMismatch := by
  obtain ⟨n, -, h⟩ := List.mem_flatMap.mp h
  obtain ⟨m, -, hx⟩ := List.mem_filterMap.mp h
  unfold typeMismatch? at hx
  split at hx
  · cases hx
  · split_ifs at hx
    cases hx
    rfl

theorem kind_patternConsistency {f : Forest} {below : Binary64 → Bool} {x : Finding}
    (h : x ∈ patternConsistency f below) : x.kind = .patternInconsistency := by
  obtain ⟨q, -, h⟩ := List.mem_flatMap.mp h
  dsimp only [minority] at h
  split at h
  · cases h
  · split_ifs at h
    · cases h
    · obtain ⟨c, -, rfl⟩ := List.mem_map.mp h
      rfl

theorem kind_duplicateMappings {f : Forest} {x : Finding} (h : x ∈ duplicateMappings f) :
    x.kind = .duplicateMapping := by
  obtain ⟨q, -, hx⟩ := List.mem_filterMap.mp h
  dsimp only at hx
  split at hx
  · cases hx
    rfl
  · cases hx

theorem kind_formulas {f : Forest} {x : Finding} (h : x ∈ formulas f) :
    x.kind = .formulaIssue := by
  obtain ⟨q, -, h⟩ := List.mem_flatMap.mp h
  rcases List.mem_append.mp h with h | h
  · unfold expressionFindings at h
    split at h
    · cases h
    · obtain ⟨problem, -, rfl⟩ := List.mem_map.mp h
      rfl
  · rw [Option.mem_toList] at h
    unfold missingFormula? at h
    dsimp only at h
    split_ifs at h
    cases h
    rfl

theorem kind_naming {f : Forest} {rule : Option NamingRule} {x : Finding}
    (h : x ∈ naming f rule) : x.kind = .namingConvention := by
  obtain ⟨n, -, h⟩ := List.mem_flatMap.mp h
  rw [List.mem_append, List.mem_append, Option.mem_toList, Option.mem_toList,
    Option.mem_toList] at h
  rcases h with (h | h) | h
  · unfold untrimmedName? at h
    dsimp only at h
    split_ifs at h
    cases h
    rfl
  · unfold forbiddenName? at h
    split at h
    · cases h
    · cases h
      rfl
  · obtain ⟨r, -, h⟩ := Option.bind_eq_some_iff.mp h
    unfold nonconformingName? at h
    split_ifs at h
    cases h
    rfl

end Check

/-- The findings of a check have its kind. -/
theorem kind_check {settings : InspectionSettings} {f : Forest} {k : FindingKind} {x : Finding}
    (h : x ∈ k.check settings f) : x.kind = k := by
  cases k with
  | circularReference => exact Check.kind_cycles h
  | missingMapping => exact Check.kind_missingMappings h
  | typeMismatch => exact Check.kind_typeMismatches h
  | patternInconsistency => exact Check.kind_patternConsistency h
  | duplicateMapping => exact Check.kind_duplicateMappings h
  | formulaIssue => exact Check.kind_formulas h
  | namingConvention => exact Check.kind_naming h

/-- The findings of a kind are those of its check, if that runs. -/
theorem mem_inspect_iff {settings : InspectionSettings} {nodes : List Node} {k : FindingKind}
    {x : Finding} : x ∈ inspect settings nodes ∧ x.kind = k ↔
      settings.enabled k = true ∧ x ∈ k.check settings (Forest.ofNodes nodes) := by
  rw [inspect, bySeverity, mem_stableSort, List.mem_flatMap]
  constructor
  · rintro ⟨⟨j, hj, hx⟩, rfl⟩
    rw [kind_check hx]
    exact ⟨(List.mem_filter.mp hj).2, hx⟩
  · rintro ⟨enabled, hx⟩
    have listed : k ∈ FindingKind.all := by cases k <;> decide
    exact ⟨⟨k, List.mem_filter.mpr ⟨listed, enabled⟩, hx⟩, kind_check hx⟩

/-! ## Walks along parent links -/

namespace Forest

open Ancestry Relation

/-- A walk never comes back to its path if no position is its own ancestor. -/
theorem back_ascendFrom {f : Forest} (acyclic : ∀ i, ¬ TransGen (Link f.parent?) i i)
    (passed : List Nat) : ∀ (steps : Nat) (path : List Nat) (i : Nat),
      (∀ j ∈ path, TransGen (Link f.parent?) i j) →
      (f.ascendFrom passed steps path i).back = none := by
  intro steps
  induction steps with
  | zero => intro path i _; rfl
  | succ steps ih =>
    intro path i above
    rw [ascendFrom]
    split_ifs with back seen
    · exact absurd (above i back) (acyclic i)
    · rfl
    · cases hp : f.parent? i with
      | none => rfl
      | some p =>
        refine ih (path ++ [i]) p fun j hj => ?_
        have link : Link f.parent? p i := hp
        rcases List.mem_append.mp hj with hj | hj
        · exact (above j hj).head link
        · rw [List.mem_singleton.mp hj]
          exact .single link

theorem cyclesFrom_eq_nil {f : Forest} (acyclic : ∀ i, ¬ TransGen (Link f.parent?) i i)
    (starts : List Nat) : ∀ passed : List Nat, f.cyclesFrom passed starts = [] := by
  induction starts with
  | nil => intro passed; rfl
  | cons i starts ih =>
    intro passed
    rw [cyclesFrom]
    split_ifs
    · exact ih passed
    · have back := back_ascendFrom acyclic passed (f.size + 1) [] i (by simp)
      dsimp only
      rw [ih, ascend, Ascent.cycle?, back]
      rfl

/-- Without cycles of parent links the walk finds none. -/
theorem cycles_eq_nil {f : Forest} (acyclic : ∀ i, ¬ TransGen (Link f.parent?) i i) :
    f.cycles = [] :=
  cyclesFrom_eq_nil acyclic _ _

/-- The nodes of a project of a well-formed store form no cycle. -/
theorem acyclic_nodesOf {s : Store} (h : s.WellFormed) (project : String) (i : Nat) :
    ¬ TransGen (Link (ofNodes (s.nodesOf project)).parent?) i i := by
  refine acyclic_ofNodes (fun n hn id link => ?_) h.acyclic i
  exact ⟨n, (Store.mem_nodesOf.mp hn).1, rfl, link⟩

end Forest

/-- In a well-formed store no circular reference is reported. -/
theorem not_circular_of_wellFormed {s : Store} (h : s.WellFormed) (settings : InspectionSettings)
    (project : String) :
    ∀ x ∈ inspect settings (s.nodesOf project), x.kind ≠ .circularReference := by
  intro x hx circular
  obtain ⟨-, found⟩ := mem_inspect_iff.mp ⟨hx, circular⟩
  rw [FindingKind.check, Check.cycles,
    Forest.cycles_eq_nil (Forest.acyclic_nodesOf h project)] at found
  cases found

end Rollup

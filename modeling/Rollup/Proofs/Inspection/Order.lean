import Mathlib.Algebra.BigOperators.Group.List.Basic
import Mathlib.Algebra.GroupWithZero.Nat
import Rollup.Proofs.Dict
import Rollup.Proofs.Inspection
import Rollup.Proofs.Sort

/-!
# The order of findings

An inspection lists the errors, then the warnings, then what is for information, and among findings
of one severity those of one check after the other. As every check reports findings of its own kind,
a check that is switched off takes its findings away and nothing else.

Results:

* `inspect_eq`: the closed form of an inspection.
* `inspect_switchedOff`: what an inspection loses with a check.
* `get?_tally`, `sum_tally`: what the counts of a summary say.
* `inspect_switched`: all of this for every inspection.
-/

namespace Rollup

/-! ## Switches -/

/-- The settings with one check switched on or off. -/
def InspectionSettings.switched (s : InspectionSettings) (k : FindingKind) (on : Bool) :
    InspectionSettings :=
  { s with disabled := if on then s.disabled.filter (· ≠ k) else k :: s.disabled }

@[simp] theorem InspectionSettings.enabled_switched (s : InspectionSettings) (k j : FindingKind)
    (on : Bool) : (s.switched k on).enabled j = if j = k then on else s.enabled j := by
  cases on <;> by_cases same : j = k <;> simp [switched, enabled, same]

/-- Switches do not reach into the checks. -/
@[simp] theorem FindingKind.check_switched (s : InspectionSettings) (k j : FindingKind) (on : Bool)
    (f : Forest) : j.check (s.switched k on) f = j.check s f := by
  cases j <;> rfl

/-! ## The closed form -/

/-- The severities, the most serious first. -/
def Severity.all : List Severity :=
  [error, warning, info]

theorem Severity.rank_inj {v v' : Severity} (same : v.rank = v'.rank) : v = v' := by
  cases v <;> cases v' <;> first | rfl | cases same

/-- What the check for a kind adds to an inspection with a severity. -/
def FindingKind.reports (s : InspectionSettings) (f : Forest) (v : Severity) (k : FindingKind) :
    List Finding :=
  if s.enabled k then (k.check s f).filter (·.severity = v) else []

theorem bySeverity_eq (findings : List Finding) :
    bySeverity findings = Severity.all.flatMap fun v => findings.filter (·.severity = v) := by
  have ranked : ∀ x ∈ findings, x.severity.rank ∈ Severity.all.map Severity.rank := by
    intro x _
    cases x.severity <;> decide
  rw [bySeverity, stableSort_eq_flatMap (by decide) ranked, List.flatMap_map]
  refine List.flatMap_congr fun v _ => List.filter_congr fun x _ => ?_
  exact decide_eq_decide.mpr ⟨Severity.rank_inj, congrArg Severity.rank⟩

theorem flatMap_filter {α β : Type} (p : α → Bool) (f : α → List β) (xs : List α) :
    (xs.filter p).flatMap f = xs.flatMap fun a => if p a then f a else [] := by
  induction xs with
  | nil => rfl
  | cons a xs ih => by_cases h : p a <;> simp [h, ih]

/-- An inspection lists the findings severity by severity, and those of one severity check by
    check. -/
theorem inspect_eq (s : InspectionSettings) (nodes : List Node) :
    inspect s nodes = Severity.all.flatMap fun v =>
      FindingKind.all.flatMap (FindingKind.reports s (Forest.ofNodes nodes) v) := by
  rw [inspect, bySeverity_eq]
  refine List.flatMap_congr fun v _ => ?_
  rw [List.filter_flatMap, flatMap_filter]
  rfl

/-! ## Checks that are switched off -/

/-- What a check reports of the findings that are not of a kind. -/
theorem filter_reports (s : InspectionSettings) (f : Forest) (v : Severity) (k j : FindingKind) :
    (j.reports s f v).filter (·.kind ≠ k) = if j = k then [] else j.reports s f v := by
  have kind : ∀ x ∈ j.reports s f v, x.kind = j := by
    intro x hx
    unfold FindingKind.reports at hx
    split_ifs at hx
    · exact kind_check (List.mem_of_mem_filter hx)
    · cases hx
  split_ifs with same
  · rw [List.filter_eq_nil_iff]
    intro x hx
    simp [kind x hx, same]
  · rw [List.filter_eq_self]
    intro x hx
    simp [kind x hx, same]

/-- A check that is switched off takes the findings of its kind away, and the others stay in their
    order. -/
theorem inspect_switchedOff (s : InspectionSettings) (nodes : List Node) (k : FindingKind) :
    inspect (s.switched k false) nodes =
      (inspect (s.switched k true) nodes).filter (·.kind ≠ k) := by
  rw [inspect_eq, inspect_eq, List.filter_flatMap]
  refine List.flatMap_congr fun v _ => ?_
  rw [List.filter_flatMap]
  refine List.flatMap_congr fun j _ => ?_
  rw [filter_reports]
  by_cases same : j = k <;> simp [FindingKind.reports, same]

/-! ## Counts -/

namespace FindingSummary

theorem tally_concat (names : List String) (s : String) :
    tally (names ++ [s]) =
      Dict.insert s ((Dict.get? s (tally names)).getD 0 + 1) (tally names) := by
  rw [tally, List.foldl_append]
  rfl

theorem ordered_tally (names : List String) : Dict.Ordered (tally names) := by
  induction names using List.reverseRecOn with
  | nil => exact List.Pairwise.nil
  | append_singleton names s ih =>
    rw [tally_concat]
    exact Dict.ordered_insert ih _ _

/-- A count is how often its text occurs. -/
theorem get?_tally (names : List String) (s : String) :
    (Dict.get? s (tally names)).getD 0 = names.count s := by
  induction names using List.reverseRecOn with
  | nil => rfl
  | append_singleton names j ih =>
    rw [tally_concat, Dict.get?_insert, List.count_append, List.count_singleton]
    by_cases same : s = j
    · subst same
      simp [ih]
    · simp [same, Ne.symm same, ih]

end FindingSummary

/-- Setting a count changes the sum of all counts by as much. -/
theorem Dict.sum_insert {d : Dict Nat} (ordered : Ordered d) (k : String) (n : Nat) :
    ((insert k n d).map (·.2)).sum + (get? k d).getD 0 = (d.map (·.2)).sum + n := by
  induction d with
  | nil => simp [insert, get?]
  | cons p d ih =>
    obtain ⟨k', n'⟩ := p
    obtain ⟨first, rest⟩ := List.pairwise_cons.mp ordered
    have ih := ih rest
    rw [insert]
    split_ifs with before same
    · -- the key is below all others, so it has no count
      have absent : get? k ((k', n') :: d) = none := by
        rw [get?_eq_none_iff]
        intro mem
        rcases List.mem_cons.mp mem with rfl | mem
        · exact String.lt_irrefl _ before
        · exact String.lt_asymm before (first k mem)
      rw [absent]
      simp
      omega
    · subst same
      simp [get?]
      omega
    · have later : get? k ((k', n') :: d) = get? k d := by
        simp [get?, Ne.symm same]
      rw [later, List.map_cons, List.sum_cons, List.map_cons, List.sum_cons]
      omega

/-- The counts of a summary add up to the number of texts that are counted. -/
theorem FindingSummary.sum_tally (names : List String) :
    ((tally names).map (·.2)).sum = names.length := by
  induction names using List.reverseRecOn with
  | nil => rfl
  | append_singleton names s ih =>
    have added := Dict.sum_insert (ordered_tally names) s
      ((Dict.get? s (tally names)).getD 0 + 1)
    rw [tally_concat, List.length_append, List.length_singleton]
    omega

/-! ## Inspections -/

/-- The checks do not interfere. An inspection without one check is the inspection with it less the
    findings of its kind. It lists errors, warnings and what is for information in this order, and
    among findings of one severity those of one check after the other, each check in its own order.
    The counts of a summary say how many findings there are of a kind and of a severity, and either
    add up to their number. -/
theorem inspect_switched (s : InspectionSettings) (nodes : List Node) :
    (∀ k : FindingKind, inspect (s.switched k false) nodes =
      (inspect (s.switched k true) nodes).filter (·.kind ≠ k)) ∧
    (inspect s nodes = [Severity.error, .warning, .info].flatMap fun v =>
      [FindingKind.circularReference, .missingMapping, .typeMismatch, .patternInconsistency,
        .duplicateMapping, .formulaIssue, .namingConvention].flatMap fun k =>
          if s.enabled k then (k.check s (Forest.ofNodes nodes)).filter (·.severity = v) else []) ∧
    ∀ findings : List Finding,
      let summary := FindingSummary.ofFindings findings
      summary.total = findings.length ∧
        (summary.byKind.map (·.2)).sum = summary.total ∧
        (summary.bySeverity.map (·.2)).sum = summary.total ∧
        (∀ k : FindingKind, (Dict.get? k.name summary.byKind).getD 0 =
          findings.countP (·.kind = k)) ∧
        ∀ v : Severity, (Dict.get? v.name summary.bySeverity).getD 0 =
          findings.countP (·.severity = v) := by
  refine ⟨inspect_switchedOff s nodes, inspect_eq s nodes, fun findings => ?_⟩
  have kinds : ∀ j k : FindingKind, j.name = k.name ↔ j = k := by
    intro j k
    cases j <;> cases k <;> decide
  have severities : ∀ u v : Severity, u.name = v.name ↔ u = v := by
    intro u v
    cases u <;> cases v <;> decide
  refine ⟨rfl, ?_, ?_, fun k => ?_, fun v => ?_⟩
  · exact (FindingSummary.sum_tally _).trans (List.length_map _)
  · exact (FindingSummary.sum_tally _).trans (List.length_map _)
  · refine (FindingSummary.get?_tally _ _).trans ?_
    rw [List.count, List.countP_map]
    exact List.countP_congr fun x _ => by simp [kinds]
  · refine (FindingSummary.get?_tally _ _).trans ?_
    rw [List.count, List.countP_map]
    exact List.countP_congr fun x _ => by simp [severities]

end Rollup

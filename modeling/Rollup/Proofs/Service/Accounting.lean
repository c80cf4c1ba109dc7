import Mathlib.Data.List.Basic
import Rollup.Proofs.Import.RowNumbers
import Rollup.Proofs.Import.Warnings
import Rollup.Proofs.Service.Skipped
import Rollup.Proofs.Text.Slug

/-!
# The accounts of an import

The counts of an import add up: each group of rows is imported or skipped, and the project grows by
the imported and the synthesized nodes. No hierarchy id is used twice, so storing never fails, and
an import reports no failure of this kind.

Results:

* `not_mentions_failed`: no error about a row is about a failure.
* `accounts_rows`: the accounts of an import into a reachable store.
-/

namespace Rollup

/-- The words occur in the text. -/
def Mentions (words text : String) : Prop :=
  words.toList <:+: text.toList

instance (words text : String) : Decidable (Mentions words text) :=
  inferInstanceAs (Decidable (words.toList <:+: text.toList))

/-- A text without one of the letters of some words does not mention them. -/
theorem not_mentions {words text : String} (c : Char) (has : c ∈ words.toList)
    (lacks : c ∉ text.toList) : ¬ Mentions words text :=
  fun mentioned => lacks (mentioned.subset has)

theorem Mentions.part {words more text : String} (mentioned : Mentions more text)
    (part : Mentions words more) : Mentions words text :=
  List.IsInfix.trans part mentioned

/-! ## Errors about rows -/

/-- The label of a row has no letter besides those of its first word. -/
theorem notMem_rowLabel {number : Nat} {c : Char} (letter : c.isDigit = false)
    (other : c ∉ "row : ".toList) : c ∉ (rowLabel number).toList := by
  have digits : (toString number).toList = Nat.toDigits 10 number := by
    change number.repr.toList = _
    rw [Nat.repr_eq_ofList_toDigits, String.toList_ofList]
  rw [rowLabel, String.toList_append, String.toList_append, digits, List.mem_append,
    List.mem_append]
  rintro ((first | digit) | last)
  · exact other (by revert first; simp; tauto)
  · rw [Literal.isDigit_toDigits _ c digit] at letter
    cases letter
  · exact other (by revert last; simp; tauto)

/-- No error about the rows of a file is about a failure. -/
theorem Dialect.not_mentions_failed {d : Dialect} {w : Window} {rows : List HierarchyRow}
    (mapped : ∀ row ∈ rows, row.ReadIn d) : ∀ e ∈ (d.group w rows).2, ¬ Mentions "failed" e := by
  intro e reported
  cases d with
  | legacy =>
    obtain ⟨r, -, -, rfl⟩ : ∃ r ∈ rows, RowGroup.Legacy.rowPath w r = [] ∧
        rowLabel r.number ++ "no LEVEL value or HIERARCHY_NAME" = e := by
      simpa [group, RowGroup.Legacy.group] using reported
    refine not_mentions 'f' (by decide) ?_
    rw [String.toList_append, List.mem_append]
    exact not_or.mpr ⟨notMem_rowLabel (by decide) (by decide), by decide⟩
  | standard =>
    rcases (RowGroup.Standard.mem_errors_iff mapped).mp reported with
      ⟨r, -, -, rfl⟩ | ⟨name, leader, empty, -, rfl⟩
    · refine not_mentions 'f' (by decide) ?_
      rw [RowGroup.Standard.nameless, String.toList_append, List.mem_append]
      exact not_or.mpr ⟨notMem_rowLabel (by decide) (by decide), by decide⟩
    · -- the name itself has no letters
      have letter : Text.isLetterOrNumber 'l' = true := by decide +kernel
      have bare : 'l' ∉ name.toList := by
        intro mem
        rw [Text.slug_eq_empty_iff.mp empty 'l' mem] at letter
        cases letter
      refine not_mentions 'l' (by decide) ?_
      simp only [RowGroup.Standard.underivable, String.toList_append, List.mem_append, not_or]
      exact ⟨⟨⟨notMem_rowLabel (by decide) (by decide), by decide⟩, bare⟩, by decide⟩

/-! ## The accounts -/

namespace Import

/-- The accounts of an import of rows into a project of a store: the store after it, and its
    summary. -/
structure Accounts (s : Store) (project : String) (d : Dialect) (w : Window)
    (rows : List HierarchyRow) (t : Store) (summary : Summary) : Prop where
  /-- The errors are about rows that are in no group. -/
  errors : summary.errors = (d.group w rows).2
  /-- Every new node has been stored and linked: no error says otherwise. -/
  failures : ∀ e ∈ summary.errors,
    ¬ Mentions "create failed" e ∧ ¬ Mentions "linking parent failed" e
  /-- Every parent has been stored: no warning says otherwise. -/
  unstored : ∀ x ∈ summary.warnings, isUnstoredWarning x = false
  /-- Each group is imported or skipped. -/
  groups : (d.group w rows).1.length = summary.imported + summary.skipped
  /-- A group is skipped if an earlier group has its id, else if its id is stored. -/
  skipped :
    let plan := (ImportPlan.ofRows project d w rows).1
    summary.skipped =
      plan.repeated.length + (plan.taken ((s.nodesOf project).map (·.hierarchyId))).length
  /-- The project grows by the imported and the synthesized nodes. -/
  nodes : (t.nodesOf project).length =
    (s.nodesOf project).length + (summary.imported + summary.synthesized)
  /-- No other project changes. -/
  others : ∀ other, other ≠ project → t.nodesOf other = s.nodesOf other

end Import

namespace Service

open Import

/-- The accounts of an import into a reachable store are exact, whatever the file says. -/
theorem accounts_rows {s : Store} (h : Reachable s) {project : String}
    (known : s.hasProject project = true) (d : Dialect) (w : Window) (marks : Bool)
    {rows : List HierarchyRow} (mapped : ∀ row ∈ rows, row.ReadIn d)
    (distinct : (rows.map (·.number)).Nodup) :
    Accounts s project d w rows (Import.rows .permissive s project d w marks rows).1
      (Import.rows .permissive s project d w marks rows).2 := by
  have wf := wellFormed_of_reachable h
  obtain ⟨added, ids, made, raised, outcome, -, run⟩ := rows_outcome s project d w marks rows known
    wf.ids (fun n hn => wf.named n (Store.mem_nodesOf.mp hn).1) (wf.keys project)
  have warnings := warnings_rows d w marks rows known wf
  have after : ∀ other, ({ s with nodes := s.nodes ++ made } : Store).nodesOf other =
      s.nodesOf other ++ if other = project then made else [] :=
    Store.nodesOf_append rfl fun m hm => outcome.inProject hm
  set plan := (ImportPlan.ofRows project d w rows).1 with hplan
  set stored := s.nodesOf project with hstored
  have numbers : (plan.groups.map (·.number)).Nodup := Dialect.numbers_group distinct
  rw [run] at warnings ⊢
  refine ⟨rfl, fun e reported => ?_, fun x raised => ?_, ?_, ?_, ?_, fun other ne => ?_⟩
  · have failed := Dialect.not_mentions_failed mapped e reported
    exact ⟨fun created => failed (created.part (by decide)),
      fun linked => failed (linked.part (by decide))⟩
  · have planned := (TotalPlan.plain_plan plan.groups).avoids fun _ =>
      isRootWarning_of_isUnstoredWarning
    have assembled := (plain_assemble plan stored).avoids fun _ =>
      isRootWarning_of_isUnstoredWarning
    rw [warnings, List.mem_append, List.mem_append] at raised
    rcases raised with (raised | raised) | raised
    · exact planned x raised
    · exact assembled x raised
    · exact Batch.not_isUnstoredWarning_link _ _ _ x raised
  · have total := plan.length_groups (Batch.ofStored stored)
    have same : plan.groups = (d.group w rows).1 := rfl
    rw [same] at total
    show _ = (plan.newGroups (Batch.ofStored stored)).length +
      (plan.repeats.length + (plan.existing (Batch.ofStored stored)).length)
    omega
  · show plan.repeats.length + (plan.existing (Batch.ofStored stored)).length =
      plan.repeated.length + (plan.taken (stored.map (·.hierarchyId))).length
    rw [ImportPlan.repeated_eq numbers, ImportPlan.taken_eq numbers, List.length_map,
      List.length_map]
  · have size : made.length = (plan.newGroups (Batch.ofStored stored)).length + added.length := by
      rw [outcome.length_made, ImportPlan.drafts, List.length_append, List.length_map,
        List.length_map]
    rw [after project, if_pos rfl, List.length_append, size]
  · rw [after other, if_neg ne, List.append_nil]

/-- A legacy table with a stored hierarchy id, a repeat of it, a node below two ancestors that no
    row describes, a repeat of that one, and a row without a path. -/
def cityRows : Table :=
  { headers := ["HIERARCHY_ID", "LEVEL_2", "LEVEL_3", "LEVEL_4"]
    columns := ["HIERARCHY_ID", "LEVEL_2", "LEVEL_3", "LEVEL_4"]
    rows := [⟨1, ["NET_SALES", "Net", "", ""]⟩, ⟨2, ["NET_SALES", "Net", "Online", ""]⟩,
      ⟨3, ["CITY", "Plan", "North", "City"]⟩, ⟨4, ["CITY", "Plan", "South", ""]⟩,
      ⟨5, ["", "", "", ""]⟩]
    problems := [] }

theorem accounts_rows_cityRows :
    let rows := readRows cityRows .legacy
    let result := Import.rows .permissive netStore "P" .legacy .legacy false rows
    (result.2.imported, result.2.skipped, result.2.synthesized, result.2.errors) =
        (1, 3, 2, ["row 5: no LEVEL value or HIERARCHY_NAME"]) ∧
      Accounts netStore "P" .legacy .legacy rows result.1 result.2 := by
  refine ⟨by decide +kernel, ?_⟩
  refine accounts_rows reachable_netStore (by decide +kernel) .legacy .legacy false ?_ ?_
  · intro row mem
    obtain ⟨record, -, read⟩ := read_of_mem_readRows mem
    exact ⟨_, _, _, read⟩
  · decide +kernel

end Service

end Rollup

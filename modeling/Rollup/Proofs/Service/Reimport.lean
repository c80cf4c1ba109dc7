import Mathlib.Data.List.Basic
import Mathlib.Tactic.SplitIfs
import Rollup.Proofs.Import.Again
import Rollup.Proofs.Service.Reachable

/-!
# Importing a table twice

Importing a table again right after a first import skips every group, reports the errors of the
first import and leaves the store as it is. References are resolved after each import if that is
set, and the second time there is nothing left to resolve.

Results:

* `table_twice`: two imports of a table into a well-formed store.
* `importTable_twice`: the same for calls of the service.
-/

namespace Rollup

namespace Import

/-- A later store still has all that an import of the table put into an earlier one. -/
structure Keeps (project : String) (d : Dialect) (w : Window) (t : Table) (s later : Store) :
    Prop where
  known : later.hasProject project = true
  wellFormed : later.WellFormed
  ids : ∀ k ∈ (ImportPlan.ofRows project d w (readRows t d)).1.nodeIds (s.nodesOf project),
    k ∈ (later.nodesOf project).map (·.hierarchyId)
  covers : ImportPlan.Covers (later.nodesOf project) (s.nodesOf project)

section Twice

variable {s : Store} {project : String}

/-- An import into a well-formed store succeeds, and the store keeps what it put there. -/
theorem table_ok (h : s.WellFormed) (known : s.hasProject project = true) (d : Dialect)
    (w : Window) (t : Table) :
    ∃ made summary,
      table .permissive s project d w t = .ok ({ s with nodes := s.nodes ++ made }, summary) ∧
      Keeps project d w t s { s with nodes := s.nodes ++ made } ∧
      summary.imported + summary.skipped =
        (ImportPlan.ofRows project d w (readRows t d)).1.groups.length ∧
      summary.errors = readErrors t d ++ (d.group w (readRows t d)).2 := by
  obtain ⟨added, ids, made, warnings, o, fresh, eq⟩ := rows_outcome s project d w
    (t.hasColumn Column.isLeafNode) (readRows t d) known h.ids
    (fun n hn => h.named n (Store.mem_nodesOf.mp hn).1) (h.keys project)
  set p := (ImportPlan.ofRows project d w (readRows t d)).1
  have add : s.Addable project made := ImportPlan.addable_made o fresh
    (ImportPlan.trimmed_drafts (trimmed_readRows t d) _ o.sublist)
  have wf : ({ s with nodes := s.nodes ++ made } : Store).WellFormed :=
    h.append rfl add (ImportPlan.acc_made h o fresh rfl)
  have nodesOf := Store.nodesOf_append (t := { s with nodes := s.nodes ++ made }) rfl add.inProject
    project
  rw [if_pos rfl] at nodesOf
  refine ⟨made, ({ errors := readErrors t d } : Summary).merge
    (rows .permissive s project d w (t.hasColumn Column.isLeafNode) (readRows t d)).2, ?_,
    ⟨known, wf, ?_, ?_⟩, ?_, ?_⟩
  · rw [table_eq known, eq]
  · intro k hk
    rw [nodesOf, List.map_append, o.map_hierarchyId]
    rwa [ImportPlan.nodeIds_eq o.drafted] at hk
  · intro n hn
    exact ⟨n, by rw [nodesOf]; exact List.mem_append_left _ hn, rfl, rfl, rfl⟩
  · rw [eq]
    have count := p.length_groups (Batch.ofStored (s.nodesOf project))
    simp only [Summary.merge]
    omega
  · rw [eq]
    rfl

/-- An import into a store that keeps what an earlier one put there changes nothing. -/
theorem table_again (h : s.WellFormed) {later : Store} {d : Dialect} {w : Window} {t : Table}
    (keeps : Keeps project d w t s later) :
    ∃ summary, table .permissive later project d w t = .ok (later, summary) ∧
      summary.imported = 0 ∧ summary.synthesized = 0 ∧
      summary.skipped = (ImportPlan.ofRows project d w (readRows t d)).1.groups.length ∧
      summary.errors = readErrors t d ++ (d.group w (readRows t d)).2 := by
  have wf := keeps.wellFormed
  obtain ⟨warnings, eq⟩ := rows_again (t.hasColumn Column.isLeafNode) keeps.known (h.keys project)
    wf.ids (fun n hn => wf.named n (Store.mem_nodesOf.mp hn).1) (wf.keys project) keeps.ids
    keeps.covers
  rw [table_eq keeps.known, eq]
  exact ⟨_, rfl, rfl, rfl, by simp [Summary.merge], rfl⟩

/-- Rewriting nodes in the course of resolving keeps what an import put there. -/
theorem keeps_rewrite {d : Dialect} {w : Window} {t : Table} {imported resolved : Store}
    (keeps : Keeps project d w t s imported) (projects : resolved.projects = imported.projects)
    (nodes : resolved.nodes = imported.nodes.map
      (Resolution.rewriteIn project (Directory.ofNodes (imported.nodesOf project)))) :
    Keeps project d w t s resolved := by
  refine ⟨?_, Resolution.wellFormed_rewrite keeps.wellFormed nodes, ?_, ?_⟩
  · have same : resolved.hasProject project = imported.hasProject project := by
      rw [Store.hasProject, Store.project?, projects]
      rfl
    rw [same]
    exact keeps.known
  · intro k hk
    rw [Resolution.nodesOf_rewrite nodes, List.map_map]
    obtain ⟨n, hn, rfl⟩ := List.mem_map.mp (keeps.ids k hk)
    exact List.mem_map.mpr ⟨n, hn, Resolution.hierarchyId_rewrite _ n⟩
  · intro n hn
    obtain ⟨m, hm, hid, hname, hpath⟩ := keeps.covers n hn
    rw [Resolution.nodesOf_rewrite nodes]
    refine ⟨_, List.mem_map_of_mem hm, ?_, ?_, ?_⟩
    · rw [Resolution.hierarchyId_rewrite, hid]
    · rw [Resolution.name_rewrite, hname]
    · rw [Resolution.levelPath_rewrite, hpath]

end Twice

end Import

namespace Service

/-- An import by the service in a dialect that is given or shown. -/
theorem importTable_eq {s imported : Store} {project : String} {table : Table}
    {dialect : Option Dialect} {d : Dialect} {summary : Summary}
    (known : s.hasProject project = true)
    (shown : dialect.or (Dialect.ofFormat? (Format.detect table.headers).format) = some d)
    (done : Import.table .permissive s project d
      ((Settings.importOptions s (some project)).window d) table = .ok (imported, summary)) :
    importTable s project table dialect =
      if (Settings.importOptions s (some project)).resolveAfterImport then
        (resolve imported project).map fun r =>
          (r.1, ⟨Format.detect table.headers, d, summary, some r.2⟩)
      else .ok (imported, ⟨Format.detect table.headers, d, summary, none⟩) := by
  rw [Import.table] at done
  rw [importTable, importTableIn_eq _ known shown, done]
  rfl

/-- Importing a table twice: the second import adds nothing, skips what the first one imported or
    skipped, reports the same errors, and leaves the store as it is. -/
theorem importTable_twice (s : Store) (h : Reachable s) (project : String)
    (known : s.hasProject project = true) (table : Table) (dialect : Option Dialect)
    (shown : (dialect.or
      (Dialect.ofFormat? (Format.detect table.headers).format)).isSome = true) :
    ∃ s₁ r₁ r₂, importTable s project table dialect = .ok (s₁, r₁) ∧
      importTable s₁ project table dialect = .ok (s₁, r₂) ∧
      r₂.summary.imported = 0 ∧ r₂.summary.synthesized = 0 ∧
      r₂.summary.skipped = r₁.summary.imported + r₁.summary.skipped ∧
      r₂.summary.errors = r₁.summary.errors := by
  obtain ⟨d, hd⟩ := Option.isSome_iff_exists.mp shown
  have wf := wellFormed_of_reachable h
  set options := Settings.importOptions s (some project) with hoptions
  obtain ⟨made, summary, first, keeps, count, errors⟩ :=
    Import.table_ok wf known d (options.window d) table
  set imported : Store := { s with nodes := s.nodes ++ made } with himported
  have run := importTable_eq known hd first
  by_cases again : options.resolveAfterImport = true
  · obtain ⟨report, resolved⟩ := Resolution.project_eq keeps.wellFormed keeps.known
    set s₁ : Store := { imported with nodes := imported.nodes.map (Resolution.rewriteIn project
      (Directory.ofNodes (imported.nodesOf project))) } with hs₁
    have keeps₁ : Import.Keeps project d (options.window d) table s s₁ :=
      Import.keeps_rewrite keeps rfl rfl
    obtain ⟨summary₂, second, imported₂, synthesized₂, skipped₂, errors₂⟩ :=
      Import.table_again wf keeps₁
    obtain ⟨report₂, resolved₂⟩ := Resolution.project_again keeps.wellFormed keeps₁.known rfl
    have run₂ := importTable_eq keeps₁.known hd second
    rw [← hoptions, if_pos again, resolve, resolved] at run
    rw [show Settings.importOptions s₁ (some project) = options from rfl, if_pos again, resolve,
      resolved₂] at run₂
    exact ⟨s₁, _, _, run, run₂, imported₂, synthesized₂, skipped₂.trans count.symm,
      errors₂.trans errors.symm⟩
  · obtain ⟨summary₂, second, imported₂, synthesized₂, skipped₂, errors₂⟩ :=
      Import.table_again wf keeps
    have run₂ := importTable_eq keeps.known hd second
    rw [← hoptions, if_neg again] at run
    rw [show Settings.importOptions imported (some project) = options from rfl,
      if_neg again] at run₂
    exact ⟨imported, _, _, run, run₂, imported₂, synthesized₂, skipped₂.trans count.symm,
      errors₂.trans errors.symm⟩

/-- A legacy table with one row, whose two ancestors no row describes. -/
def deepRow : Table :=
  { headers := ["LEVEL_2", "LEVEL_3", "LEVEL_4"]
    columns := ["LEVEL_2", "LEVEL_3", "LEVEL_4"]
    rows := [⟨1, ["Sales", "North", "Shop"]⟩]
    problems := [] }

theorem importTable_twice_deepRow :
    ((importTable { projects := [⟨"P", "P"⟩] } "P" deepRow (some .legacy)).toOption.map fun x =>
        (x.2.summary.imported, x.2.summary.synthesized)) = some (1, 2) ∧
      ∃ s₁ r₁ r₂,
        importTable { projects := [⟨"P", "P"⟩] } "P" deepRow (some .legacy) = .ok (s₁, r₁) ∧
        importTable s₁ "P" deepRow (some .legacy) = .ok (s₁, r₂) ∧
        r₂.summary.imported = 0 ∧ r₂.summary.synthesized = 0 ∧
        r₂.summary.skipped = r₁.summary.imported + r₁.summary.skipped ∧
        r₂.summary.errors = r₁.summary.errors := by
  have created : run {} (.initProject "P" "") = .ok { projects := [⟨"P", "P"⟩] } := by rfl
  exact ⟨by decide +kernel, importTable_twice { projects := [⟨"P", "P"⟩] }
    (.call _ .empty created) "P" (by decide) deepRow (some .legacy) rfl⟩

end Service

end Rollup

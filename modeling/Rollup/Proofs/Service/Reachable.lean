import Mathlib.Logic.Relation
import Rollup.Proofs.Import.Invariant
import Rollup.Proofs.Inspection
import Rollup.Proofs.MappingImport
import Rollup.Proofs.Resolution
import Rollup.Service

/-!
# Stores that the service can reach

Every call of the service keeps a store well-formed, so every store that calls lead to from the
empty one is. Calls that fail change nothing and need not be followed.

Results:

* `importTableIn_alike`: the order in which repeated labels are searched does not matter to an import.
* `wellFormed_run`: one call keeps a store well-formed.
* `wellFormed_of_reachable`: reachable stores are well-formed.
* `invariant_of_reachable`: what this says, clause by clause, and what the inspection makes of it.
-/

namespace Rollup

/-- A call of the service that can change a store. -/
inductive Call where
  | initProject (id name : String)
  | importTable (project : String) (table : Table) (dialect : Option Dialect)
  | importMappings (project : String) (table : Table)
  | resolve (project : String)
  | setSetting (project : Option String) (key value : String)

namespace Service

/-- The store after a call. -/
def run (s : Store) : Call → Except ServiceError Store
  | .initProject id name => (initProject s id name).map (·.1)
  | .importTable project table dialect => (importTable s project table dialect).map (·.1)
  | .importMappings project table => (importMappings s project table).map (·.1)
  | .resolve project => (resolve s project).map (·.1)
  | .setSetting project key value => setSetting s project key value

/-- A store that calls lead to from the empty one. -/
inductive Reachable : Store → Prop where
  | empty : Reachable {}
  | call {s t : Store} (c : Call) : Reachable s → run s c = .ok t → Reachable t

/-! ## Calls that succeed -/

theorem map_eq_ok {ε α β : Type} {x : Except ε α} {f : α → β} {b : β}
    (h : x.map f = .ok b) : ∃ a, x = .ok a ∧ f a = b := by
  cases x with
  | error e => cases h
  | ok a => exact ⟨a, rfl, by cases h; rfl⟩

theorem mapError_eq_ok {ε ε' α : Type} {x : Except ε α} {f : ε → ε'} {a : α}
    (h : x.mapError f = .ok a) : x = .ok a := by
  cases x with
  | error e => cases h
  | ok b => cases h; rfl

theorem resolve_eq_ok {s t : Store} {project : String} {report : ResolutionReport}
    (h : resolve s project = .ok (t, report)) :
    Resolution.project .permissive s project = .ok (t, report) :=
  mapError_eq_ok h

/-- An import by the service in a dialect that is given or shown. -/
theorem importTableIn_eq (order : TotalPlan.SearchOrder) {s : Store} {project : String}
    (known : s.hasProject project = true) {table : Table} {dialect : Option Dialect} {d : Dialect}
    (shown : dialect.or (Dialect.ofFormat? (Format.detect table.headers).format) = some d) :
    importTableIn order s project table dialect =
      ((Import.tableIn order .permissive s project d
        ((Settings.importOptions s (some project)).window d) table).mapError .ofImport).bind
          (finishImport s project (Format.detect table.headers) d) := by
  unfold importTableIn
  rw [requireProject, if_pos known]
  dsimp only [bind, Except.bind]
  rw [shown]

/-- An import by the service into a project that is not stored, or in no dialect. -/
theorem importTableIn_eq_error {s : Store} {project : String} {table : Table}
    {dialect : Option Dialect} (failing : s.hasProject project = true →
      dialect.or (Dialect.ofFormat? (Format.detect table.headers).format) = none) :
    ∃ e, ∀ order, importTableIn order s project table dialect = .error e := by
  unfold importTableIn
  by_cases known : s.hasProject project = true
  · refine ⟨.ofImport (.notAHierarchy (Format.detect table.headers).format), fun order => ?_⟩
    rw [requireProject, if_pos known]
    dsimp only [bind, Except.bind]
    rw [failing known]
    rfl
  · refine ⟨.unknownProject project, fun order => ?_⟩
    rw [requireProject, if_neg known]
    rfl

/-- An import that succeeds: the project is stored, a dialect is given or shown, the table is
    imported in it, and its references are resolved if that is set. -/
theorem importTable_eq_ok {s t : Store} {project : String} {table : Table}
    {dialect : Option Dialect} {report : ImportReport}
    (h : importTable s project table dialect = .ok (t, report)) :
    s.hasProject project = true ∧
      dialect.or (Dialect.ofFormat? (Format.detect table.headers).format) = some report.dialect ∧
      ∃ imported,
        Import.table .permissive s project report.dialect
          ((Settings.importOptions s (some project)).window report.dialect) table =
            .ok (imported, report.summary) ∧
        if (Settings.importOptions s (some project)).resolveAfterImport then
          ∃ r, Resolution.project .permissive imported project = .ok (t, r)
        else t = imported := by
  by_cases ready : s.hasProject project = true →
      dialect.or (Dialect.ofFormat? (Format.detect table.headers).format) = none
  · obtain ⟨e, failed⟩ := importTableIn_eq_error ready
    rw [importTable, failed] at h
    cases h
  · obtain ⟨known, shown⟩ := Classical.not_imp.mp ready
    obtain ⟨d, hd⟩ := Option.ne_none_iff_exists'.mp shown
    rw [importTable, importTableIn_eq _ known hd] at h
    obtain ⟨⟨imported, summary⟩, himport, h⟩ := Except.bind_eq_ok_iff.mp h
    have himport := mapError_eq_ok himport
    unfold finishImport at h
    split_ifs at h with again
    · obtain ⟨⟨resolved, r⟩, hresolve, h⟩ := map_eq_ok h
      cases h
      refine ⟨known, hd, imported, himport, ?_⟩
      rw [if_pos again]
      exact ⟨r, resolve_eq_ok hresolve⟩
    · cases h
      refine ⟨known, hd, imported, himport, ?_⟩
      rw [if_neg again]

/-! ## Orders of the search for repeats -/

/-- Two outcomes of an import are alike: both are the same error, or both leave the same store and
    reports that agree but for the groups that warnings about a repeated label name. -/
inductive SameImport (s : Store) (project : String) (table : Table) :
    Except ServiceError (Store × ImportReport) → Except ServiceError (Store × ImportReport) → Prop
  | error (e : ServiceError) : SameImport s project table (.error e) (.error e)
  | ok (t : Store) {report report' : ImportReport}
      (rest : report' = { report with summary := report'.summary })
      (summary : report.summary.Alike (report.dialect.group
        ((Settings.importOptions s (some project)).window report.dialect)
        (Import.readRows table report.dialect)).1 report'.summary) :
      SameImport s project table (.ok (t, report)) (.ok (t, report'))

theorem sameImport_finishImport {s : Store} {project : String} {table : Table} (d : Dialect)
    (detection : Detection) (t : Store) {summary summary' : Summary}
    (alike : summary.Alike (d.group ((Settings.importOptions s (some project)).window d)
      (Import.readRows table d)).1 summary') :
    SameImport s project table (finishImport s project detection d (t, summary))
      (finishImport s project detection d (t, summary')) := by
  unfold finishImport
  split_ifs
  · cases resolve t project with
    | error e => exact .error e
    | ok r => exact .ok r.1 rfl alike
  · exact .ok t rfl alike

/-- In whatever order repeated labels are searched, imports have the same outcome. -/
theorem importTableIn_alike (order : TotalPlan.SearchOrder) (s : Store) (project : String)
    (table : Table) (dialect : Option Dialect) :
    SameImport s project table (importTableIn order s project table dialect)
      (importTable s project table dialect) := by
  by_cases ready : s.hasProject project = true →
      dialect.or (Dialect.ofFormat? (Format.detect table.headers).format) = none
  · obtain ⟨e, failed⟩ := importTableIn_eq_error ready
    rw [importTable, failed, failed]
    exact .error e
  · obtain ⟨known, shown⟩ := Classical.not_imp.mp ready
    obtain ⟨d, hd⟩ := Option.ne_none_iff_exists'.mp shown
    obtain ⟨imported, _, _, ran, ran', alike⟩ := Import.tableIn_alike order .permissive s project d
      ((Settings.importOptions s (some project)).window d) known table
    rw [Import.table] at ran'
    rw [importTable, importTableIn_eq _ known hd, importTableIn_eq _ known hd, ran, ran']
    exact sameImport_finishImport d _ imported alike

/-- A call leaves the store that it leaves in every order. -/
theorem map_fst_importTableIn (order : TotalPlan.SearchOrder) (s : Store) (project : String)
    (table : Table) (dialect : Option Dialect) :
    (importTableIn order s project table dialect).map (·.1) =
      run s (.importTable project table dialect) := by
  have alike := importTableIn_alike order s project table dialect
  change _ = (importTable s project table dialect).map (·.1)
  generalize importTableIn order s project table dialect = x at alike ⊢
  generalize importTable s project table dialect = y at alike ⊢
  cases alike with
  | error e => rfl
  | ok t => rfl

/-! ## Well-formed stores -/

theorem nodes_initProject {s t : Store} {id name : String} {p : Project}
    (h : initProject s id name = .ok (t, p)) : t.nodes = s.nodes := by
  unfold initProject at h
  dsimp only at h
  split_ifs at h
  all_goals
    split at h
    · cases h
      rfl
    · cases h
      rfl

theorem nodes_setSetting {s t : Store} {project : Option String} {key value : String}
    (h : setSetting s project key value = .ok t) : t.nodes = s.nodes := by
  unfold setSetting at h
  dsimp only at h
  split_ifs at h
  · obtain ⟨_, refused, -⟩ := Except.bind_eq_ok_iff.mp h
    cases refused
  · cases project with
    | none =>
      cases h
      rfl
    | some p =>
      obtain ⟨_, -, h⟩ := Except.bind_eq_ok_iff.mp h
      cases h
      rfl

theorem wellFormed_importTable {s t : Store} (h : s.WellFormed) {project : String} {table : Table}
    {dialect : Option Dialect} {report : ImportReport}
    (done : importTable s project table dialect = .ok (t, report)) : t.WellFormed := by
  obtain ⟨-, -, imported, himport, rest⟩ := importTable_eq_ok done
  have wf := Import.wellFormed_table h himport
  split_ifs at rest
  · obtain ⟨r, hr⟩ := rest
    exact Resolution.wellFormed_project wf hr
  · exact rest ▸ wf

/-- One call keeps a store well-formed. -/
theorem wellFormed_run {s t : Store} (h : s.WellFormed) (c : Call) (done : run s c = .ok t) :
    t.WellFormed := by
  cases c with
  | initProject id name =>
    obtain ⟨⟨t', p⟩, eq, rfl⟩ := map_eq_ok done
    exact h.of_nodes_eq (nodes_initProject eq)
  | importTable project table dialect =>
    obtain ⟨⟨t', report⟩, eq, rfl⟩ := map_eq_ok done
    exact wellFormed_importTable h eq
  | importMappings project table =>
    obtain ⟨⟨t', summary⟩, eq, rfl⟩ := map_eq_ok done
    unfold importMappings at eq
    dsimp only at eq
    split_ifs at eq
    exact MappingImport.wellFormed_table h (mapError_eq_ok eq)
  | resolve project =>
    obtain ⟨⟨t', report⟩, eq, rfl⟩ := map_eq_ok done
    exact Resolution.wellFormed_project h (resolve_eq_ok eq)
  | setSetting project key value =>
    exact h.of_nodes_eq (nodes_setSetting done)

/-- Reachable stores are well-formed. -/
theorem wellFormed_of_reachable {s : Store} (h : Reachable s) : s.WellFormed := by
  induction h with
  | empty => exact Store.wellFormed_of_nodes_nil rfl
  | call c _ done ih => exact wellFormed_run ih c done

/-- What holds of every reachable store. In particular, analyzing one never reports a circular
    reference. -/
theorem invariant_of_reachable (s : Store) (h : Reachable s) :
    (s.nodes.map (·.id)).Nodup ∧ (∀ n ∈ s.nodes, n.id ≠ "") ∧
      (∀ project, ((s.nodesOf project).map (·.hierarchyId)).Nodup) ∧
      (∀ n ∈ s.nodes, ∀ id, n.parentId = some id → ∃ m ∈ s.nodesOf n.projectId, m.id = id) ∧
      (∀ id, ¬ Relation.TransGen s.IsParent id id) ∧
      (∀ n ∈ s.nodes, n.isRoot = true ↔ n.parentId = none) ∧
      (∀ n ∈ s.nodes, ∀ total, n.total? = some total → ∀ c ∈ total.children,
        ∃ m ∈ s.nodesOf n.projectId, c.hierarchyId = some m.hierarchyId) ∧
      (∀ project report, analyze s project = .ok report →
        ∀ x ∈ report.findings, x.kind ≠ .circularReference) := by
  have wf := wellFormed_of_reachable h
  refine ⟨wf.ids, wf.named, wf.keys, ?_, wf.acyclic, wf.roots, ?_, ?_⟩
  · intro n hn id hid
    obtain ⟨m, hm, same, hproject⟩ := wf.parents n hn id hid
    exact ⟨m, Store.mem_nodesOf.mpr ⟨hm, hproject⟩, same⟩
  · intro n hn total ht c hc
    obtain ⟨k, hk, same⟩ := wf.totals n hn total ht c hc
    obtain ⟨m, hm, rfl⟩ := List.mem_map.mp hk
    exact ⟨m, hm, same⟩
  · intro project report done
    unfold analyze at done
    obtain ⟨-, -, done⟩ := Except.bind_eq_ok_iff.mp done
    cases done
    exact not_circular_of_wellFormed wf _ project

/-! ## An example -/

theorem ok_of_toOption {ε α : Type} {x : Except ε α} {a : α} (h : x.toOption = some a) :
    x = .ok a := by
  cases x with
  | error e => cases h
  | ok b => cases h; rfl

/-- A table with a root and a node below it. -/
def twoRows : Table :=
  { headers := ["HIERARCHY_ID", "HIERARCHY_NAME", "PARENT_ID"]
    columns := ["HIERARCHY_ID", "HIERARCHY_NAME", "PARENT_ID"]
    rows := [⟨1, ["A", "Alpha", ""]⟩, ⟨2, ["B", "Beta", "A"]⟩]
    problems := [] }

theorem invariant_of_reachable_twoRows :
    ∃ s, Reachable s ∧
      s.nodes.map (fun n => (n.hierarchyId, n.isRoot)) = [("A", true), ("B", false)] ∧
      (s.nodes.map (·.id)).Nodup ∧ ∀ id, ¬ Relation.TransGen s.IsParent id id := by
  have calls : (((run {} (.initProject "P" "")).toOption.bind fun s =>
      (run s (.importTable "P" twoRows (some .standard))).toOption).map fun t =>
        t.nodes.map fun n => (n.hierarchyId, n.isRoot)) = some [("A", true), ("B", false)] := by
    decide +kernel
  obtain ⟨t, ht, nodes⟩ := Option.map_eq_some_iff.mp calls
  obtain ⟨s, hs, ht⟩ := Option.bind_eq_some_iff.mp ht
  have reachable : Reachable t :=
    .call _ (.call _ .empty (ok_of_toOption hs)) (ok_of_toOption ht)
  have invariant := invariant_of_reachable t reachable
  exact ⟨t, reachable, nodes, invariant.1, invariant.2.2.2.2.1⟩

end Service

end Rollup

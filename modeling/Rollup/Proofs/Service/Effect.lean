import Mathlib.Data.List.Basic
import Mathlib.Tactic.SplitIfs
import Rollup.Proofs.MappingImport.Outcome
import Rollup.Proofs.Service.Reimport

/-!
# What a call does to a store

A call that succeeds does one of six things to a well-formed store. What holds of every call is
proved by cases on them, without a look at how the call is carried out.

Results:

* `importTable_outcome`: what an import stores and reports.
* `effect_of_run`: a call that succeeds has one of the effects.
* `reachable_foldlM`: calls one after the other lead from a reachable store to a reachable one.
-/

namespace Rollup.Service

open Import

/-! ## Imports -/

/-- What becomes of the nodes of a store in the course of an import that adds `made`: if that is set,
    the references of the project are resolved. -/
def afterImport (s : Store) (project : String) (made : List Node) : Node → Node :=
  if (Settings.importOptions s (some project)).resolveAfterImport then
    Resolution.rewriteIn project (Directory.ofNodes (s.nodesOf project ++ made))
  else id

/-- The plan of an import. -/
def importPlan (s : Store) (project : String) (d : Dialect) (table : Table) : ImportPlan :=
  (ImportPlan.ofRows project d ((Settings.importOptions s (some project)).window d)
    (readRows table d)).1

/-- The nodes that an import adds to a project. -/
structure Added (s : Store) (project : String) (table : Table) (d : Dialect)
    (added : List Placeholder) (ids : List String) (made : List Node) : Prop where
  outcome : (importPlan s project d table).Outcome (s.nodesOf project)
    (table.hasColumn Column.isLeafNode) added ids made
  fresh : ∀ id ∈ ids, id ≠ "" ∧ id ∉ s.nodes.map (·.id)

section Added

variable {s : Store} {project : String} {table : Table} {d : Dialect} {added : List Placeholder}
  {ids : List String} {made : List Node}

theorem Added.addable (h : Added s project table d added ids made) : s.Addable project made :=
  ImportPlan.addable_made h.outcome h.fresh
    (ImportPlan.trimmed_drafts (trimmed_readRows table d) _ h.outcome.sublist)

theorem Added.nodesOf (h : Added s project table d added ids made) (project' : String) :
    ({ s with nodes := s.nodes ++ made } : Store).nodesOf project' =
      s.nodesOf project' ++ if project' = project then made else [] :=
  Store.nodesOf_append rfl h.addable.inProject project'

end Added

/-- An import into a well-formed store stores the nodes that it adds after all others, and then
    resolves references if that is set. -/
theorem importTable_outcome {s : Store} (h : s.WellFormed) {project : String} {table : Table}
    {dialect : Option Dialect} {t : Store} {report : ImportReport}
    (done : importTable s project table dialect = .ok (t, report)) :
    ∃ added ids made, Added s project table report.dialect added ids made ∧
      t = { s with nodes := (s.nodes ++ made).map (afterImport s project made) } ∧
      report.summary.imported = ((importPlan s project report.dialect table).newGroups
        (Batch.ofStored (s.nodesOf project))).length ∧
      report.summary.synthesized = added.length ∧
      report.summary.errors = readErrors table report.dialect ++
        (report.dialect.group ((Settings.importOptions s (some project)).window report.dialect)
          (readRows table report.dialect)).2 := by
  obtain ⟨known, -, imported, himport, rest⟩ := importTable_eq_ok done
  obtain ⟨added, ids, made, warnings, outcome, fresh, eq⟩ := rows_outcome s project report.dialect
    ((Settings.importOptions s (some project)).window report.dialect)
    (table.hasColumn Column.isLeafNode) (readRows table report.dialect) known h.ids
    (fun n hn => h.named n (Store.mem_nodesOf.mp hn).1) (h.keys project)
  have new : Added s project table report.dialect added ids made := ⟨outcome, fresh⟩
  have wf := wellFormed_table h himport
  rw [table_eq known, eq, Except.ok.injEq, Prod.mk.injEq] at himport
  obtain ⟨rfl, summary⟩ := himport
  refine ⟨added, ids, made, new, ?_, ?_, ?_, ?_⟩
  · unfold afterImport
    split_ifs at rest ⊢ with again
    · obtain ⟨r, resolved⟩ := rest
      have nodesOf := new.nodesOf project
      rw [if_pos rfl] at nodesOf
      obtain ⟨r', resolved'⟩ := Resolution.project_eq wf known
      rw [resolved', nodesOf] at resolved
      cases resolved
      rfl
    · rw [rest, List.map_id]
  · rw [← summary]
    exact Nat.zero_add _
  · rw [← summary]
    exact Nat.zero_add _
  · rw [← summary]
    rfl

/-! ## Effects -/

/-- The scope that a call addresses with an optional project. -/
def scopeOf : Option String → Scope
  | none => .everywhere
  | some p => .project p

/-- The store with the references of a project resolved. -/
def resolvedIn (s : Store) (project : String) : Store :=
  { s with nodes :=
      s.nodes.map (Resolution.rewriteIn project (Directory.ofNodes (s.nodesOf project))) }

/-- What a call that succeeds does to a store. -/
inductive Effect (s : Store) : Call → Store → Prop where
  /-- A project that is stored already is left as it is. -/
  | found {id name : String} : Effect s (.initProject id name) s
  /-- A project is added. -/
  | created {id name : String} {p : Project} (free : s.hasProject p.id = false)
      (named : p.id = Text.trim id ∧ p.id ≠ "") : Effect s (.initProject id name) (s.addProject p)
  /-- Nodes are added, and references are resolved if that is set. -/
  | imported {project : String} {table : Table} {dialect : Option Dialect} {d : Dialect}
      {added : List Placeholder} {ids : List String} {made : List Node}
      (new : Added s project table d added ids made) :
      Effect s (.importTable project table dialect)
        { s with nodes := (s.nodes ++ made).map (afterImport s project made) }
  /-- Mappings are put on nodes. -/
  | mapped {project : String} {table : Table} :
      Effect s (.importMappings project table)
        (s.replacing (MappingImport.finish s project table).revised)
  /-- References are resolved. -/
  | resolved {project : String} :
      Effect s (.resolve project) (resolvedIn s project)
  /-- A setting is changed. -/
  | configured {project : Option String} {key value : String} :
      Effect s (.setSetting project key value) (s.setSetting (scopeOf project) key value)

theorem effect_initProject {s t : Store} {id name : String} {p : Project}
    (done : initProject s id name = .ok (t, p)) : Effect s (.initProject id name) t := by
  unfold initProject at done
  dsimp only at done
  split_ifs at done with empty
  all_goals
    split at done
    · cases done
      exact .found
    · rename_i free
      cases done
      refine .created ?_ ⟨rfl, empty⟩
      rw [Store.hasProject, free]
      rfl

theorem effect_importMappings {s t : Store} (h : s.WellFormed) {project : String} {table : Table}
    {summary : Summary} (done : importMappings s project table = .ok (t, summary)) :
    Effect s (.importMappings project table) t := by
  unfold importMappings at done
  dsimp only at done
  split_ifs at done
  have done := mapError_eq_ok done
  by_cases known : s.hasProject project = true
  · rw [MappingImport.table_eq known h.ids (h.keys project)] at done
    cases done
    exact .mapped
  · rw [MappingImport.table, if_neg known] at done
    cases done

theorem effect_resolve {s t : Store} (h : s.WellFormed) {project : String}
    {report : ResolutionReport} (done : resolve s project = .ok (t, report)) :
    Effect s (.resolve project) t := by
  have done := resolve_eq_ok done
  by_cases known : s.hasProject project = true
  · obtain ⟨report', eq⟩ := Resolution.project_eq h known
    rw [eq] at done
    cases done
    exact .resolved
  · rw [Resolution.project, if_neg known] at done
    cases done

theorem effect_setSetting {s t : Store} {project : Option String} {key value : String}
    (done : setSetting s project key value = .ok t) : Effect s (.setSetting project key value) t := by
  unfold setSetting at done
  dsimp only at done
  split_ifs at done
  · obtain ⟨_, refused, -⟩ := Except.bind_eq_ok_iff.mp done
    cases refused
  · cases project with
    | none =>
      cases done
      exact .configured
    | some p =>
      obtain ⟨_, -, done⟩ := Except.bind_eq_ok_iff.mp done
      cases done
      exact .configured

/-- A call that succeeds on a well-formed store has one of the effects. -/
theorem effect_of_run {s t : Store} (h : s.WellFormed) {c : Call} (done : run s c = .ok t) :
    Effect s c t := by
  cases c with
  | initProject id name =>
    obtain ⟨⟨t', p⟩, eq, rfl⟩ := map_eq_ok done
    exact effect_initProject eq
  | importTable project table dialect =>
    obtain ⟨⟨t', report⟩, eq, rfl⟩ := map_eq_ok done
    obtain ⟨added, ids, made, new, rfl, -⟩ := importTable_outcome h eq
    exact .imported new
  | importMappings project table =>
    obtain ⟨⟨t', summary⟩, eq, rfl⟩ := map_eq_ok done
    exact effect_importMappings h eq
  | resolve project =>
    obtain ⟨⟨t', report⟩, eq, rfl⟩ := map_eq_ok done
    exact effect_resolve h eq
  | setSetting project key value => exact effect_setSetting done

/-! ## Calls one after the other -/

theorem reachable_foldlM {s t : Store} (h : Reachable s) (calls : List Call)
    (done : calls.foldlM run s = .ok t) : Reachable t := by
  induction calls generalizing s with
  | nil =>
    cases done
    exact h
  | cons c calls ih =>
    rw [List.foldlM_cons] at done
    obtain ⟨s', step, rest⟩ := Except.bind_eq_ok_iff.mp done
    exact ih (.call c h step) rest

/-- What is shown of the stores before and after the last of some calls. -/
theorem exists_reachable_run {α β : Type} {calls : List Call} {c : Call} {f : Store → α}
    {g : Store → β} {a : α} {b : β}
    (shown : ((calls.foldlM run {}).toOption.bind fun s =>
      (run s c).toOption.map fun t => (f s, g t)) = some (a, b)) :
    ∃ s t, Reachable s ∧ run s c = .ok t ∧ f s = a ∧ g t = b := by
  obtain ⟨s, before, shown⟩ := Option.bind_eq_some_iff.mp shown
  obtain ⟨t, after, shown⟩ := Option.map_eq_some_iff.mp shown
  obtain ⟨rfl, rfl⟩ := Prod.mk.inj shown
  exact ⟨s, t, reachable_foldlM .empty calls (ok_of_toOption before), ok_of_toOption after, rfl, rfl⟩

end Rollup.Service

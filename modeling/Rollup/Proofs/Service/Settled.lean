import Mathlib.Data.List.Basic
import Rollup.Proofs.Service.Frame

/-!
# References that are settled

Looking references up among the nodes of a project reaches its end in one pass. The hierarchy ids
of a reachable store are trimmed, so that what has been replaced by one is found as an id
afterwards, and what could not be replaced gives the same warning again. An import looks references
up among the very ids and names that the project has afterwards: the nodes that it adds come
settled.

Results:

* `directory_made`: an import looks references up among the nodes that are stored in the end.
* `count_made`: nothing is left to resolve in the nodes that an import adds.
* `resolve_settles`: resolving twice, and resolving after an import.
-/

namespace Rollup

/-! ## The nodes that an import adds -/

namespace ImportPlan

section Made

variable {p : ImportPlan} {stored : List Node} {marks : Bool} {added : List Placeholder}
  {ids : List String} {made : List Node} (o : p.Outcome stored marks added ids made)
  (distinct : (stored.map (·.hierarchyId)).Nodup)

include o distinct

/-- An import looks references up among the nodes that are stored in the end: totals and resolved
    references change neither ids nor names. -/
theorem directory_made :
    Directory.ofNodes (p.totalled stored).nodes = Directory.ofNodes (stored ++ made) := by
  have new : Directory.ofNodes made =
      Directory.ofNodes ((p.drafts stored added).map (·.node)) := by
    rw [Directory.ofNodes, Directory.ofNodes, List.map_map]
    refine o.map_eq fun e _ m id parent leaf eq => ?_
    have key : m.hierarchyId = e.node.hierarchyId := (congrArg Node.hierarchyId eq :)
    have name : m.name = e.node.name := (congrArg Node.name eq :)
    simp only [Function.comp_apply, key, name]
  have all : Directory.ofNodes (p.totalled stored).nodes =
      Directory.ofNodes (stored ++ (p.drafts stored added).map (·.node)) := by
    rw [Batch.nodes, Directory.ofNodes, List.map_map]
    rw [(p.agrees_totalled distinct).1.map_eq _ fun _ => rfl, o.drafted.entries, Directory.ofNodes,
      List.map_append, List.map_append, List.map_map, List.map_map]
    rfl
  rw [all, Directory.ofNodes, List.map_append, Directory.ofNodes, List.map_append]
  exact congrArg _ new.symm

/-- Nothing is left to resolve in the nodes that an import adds. -/
theorem count_made (trimmed : (Directory.ofNodes (stored ++ made)).Trimmed) {m : Node}
    (hm : m ∈ made) : ((Directory.ofNodes (stored ++ made)).resolveNode m).count = 0 := by
  obtain ⟨k, hk⟩ := List.getElem?_of_mem hm
  obtain ⟨e, n, here, rfl, formula, total⟩ := o.parts_made distinct hk
  rw [directory_made o distinct] at formula total
  -- the node stands at the place of its entry, under the same id
  have place := congrArg (·[k + stored.length]?) (directory_made o distinct)
  simp only [Directory.ofNodes, Batch.nodes, List.getElem?_map, here, Option.map_some,
    List.getElem?_append_right (Nat.le_add_left stored.length k), Nat.add_sub_cancel, hk,
    Option.some.injEq, Referent.mk.injEq] at place
  exact (Directory.resolveNode_again trimmed place.1.symm formula total).count

end Made

end ImportPlan

/-- Resolving leaves the nodes alone that an import has just added. -/
theorem Import.resolve_rows {s : Store} (h : s.WellFormed) {project : String}
    (known : s.hasProject project = true) (d : Dialect) (w : Window) (marks : Bool)
    {rs : List HierarchyRow}
    (trimmed : ∀ row ∈ rs, ∀ k, row.hierarchyId = some k → Text.trim k = k) :
    ∃ made summary u r,
      Import.rows .permissive s project d w marks rs =
        ({ s with nodes := s.nodes ++ made }, summary) ∧
      made.length = summary.imported + summary.synthesized ∧
      Resolution.project .permissive { s with nodes := s.nodes ++ made } project = .ok (u, r) ∧
      u.nodes.drop s.nodes.length = made := by
  obtain ⟨added, ids, made, warnings, o, fresh, eq⟩ := rows_outcome s project d w marks rs known
    h.ids (fun n hn => h.named n (Store.mem_nodesOf.mp hn).1) (h.keys project)
  have wf : (Import.rows .permissive s project d w marks rs).1.WellFormed :=
    wellFormed_rows h known trimmed
  rw [eq] at wf
  have length : made.length =
      ((ImportPlan.ofRows project d w rs).1.newGroups (Batch.ofStored (s.nodesOf project))).length +
        added.length := by
    rw [o.length_made, ImportPlan.drafts, List.length_append, List.length_map, List.length_map]
  have inProject : ∀ m ∈ made, m.projectId = project := fun m hm => o.inProject hm
  have nodesOf : ({ s with nodes := s.nodes ++ made } : Store).nodesOf project =
      s.nodesOf project ++ made := by
    rw [Store.nodesOf_append (s := s) rfl inProject, if_pos rfl]
  have directory := Resolution.trimmed_directory wf project
  rw [nodesOf] at directory
  refine ⟨made, _, _, _, eq, length, Resolution.project_report wf known, ?_⟩
  dsimp only
  rw [nodesOf, List.map_append, List.drop_left' (List.length_map _)]
  refine (List.map_congr_left fun m hm => ?_).trans (List.map_id made)
  have settled := ImportPlan.count_made o (h.keys project) directory hm
  rw [Resolution.rewriteIn, if_pos (inProject m hm), Resolution.rewrite, if_pos settled]
  rfl

namespace Service

theorem resolve_eq {s t : Store} {project : String} {r : ResolutionReport}
    (done : Resolution.project .permissive s project = .ok (t, r)) :
    resolve s project = .ok (t, r) := by
  rw [resolve, done]
  rfl

/-- Resolving the references of a project settles them: a second pass replaces nothing, writes
    nothing and gives the same warnings. After an import of rows, resolving leaves all nodes alone
    that were added. Rows have trimmed hierarchy ids when they are read
    (`Import.trimmed_readRows`). -/
theorem resolve_settles (s : Store) (h : Reachable s) (project : String)
    (known : s.hasProject project = true) :
    (∃ t r, resolve s project = .ok (t, r) ∧
      resolve t project =
        .ok (t, { nodesUpdated := 0, referencesResolved := 0, warnings := r.warnings })) ∧
    ∀ (d : Dialect) (w : Window) (marks : Bool) (rs : List HierarchyRow),
      (∀ row ∈ rs, ∀ k, row.hierarchyId = some k → Text.trim k = k) →
      ∃ made summary u r,
        Import.rows .permissive s project d w marks rs =
          ({ s with nodes := s.nodes ++ made }, summary) ∧
        made.length = summary.imported + summary.synthesized ∧
        resolve { s with nodes := s.nodes ++ made } project = .ok (u, r) ∧
        u.nodes.drop s.nodes.length = made := by
  have wf := wellFormed_of_reachable h
  constructor
  · refine ⟨_, _, resolve_eq (Resolution.project_report wf known), resolve_eq ?_⟩
    exact Resolution.project_repeats wf known rfl
  · intro d w marks rs trimmed
    obtain ⟨made, summary, u, r, imported, length, resolved, same⟩ :=
      Import.resolve_rows wf known d w marks trimmed
    exact ⟨made, summary, u, r, imported, length, resolve_eq resolved, same⟩

/-- A table with the node that a stored formula refers to, and another formula that names it. -/
def marginTable : Table :=
  { headers := formulaColumns
    columns := formulaColumns
    rows := [⟨1, ["GROSS", "Gross", "", "", "", "", ""]⟩,
      ⟨2, ["MARGIN", "Margin", "", "Margin", "SUM", "gross", ""]⟩]
    problems := [] }

/-- The operands of the formula of a node. -/
def operands (n : Node) : List String :=
  (n.formula.map fun f => f.rules.map (·.operand)).getD []

theorem resolve_settles_marginTable : ∃ s, Reachable s ∧ s.nodes.map operands = [["Gross"]] ∧
    (∃ t r, resolve s "P" = .ok (t, r) ∧ resolve t "P" = .ok (t, { warnings := r.warnings }) ∧
      r.warnings = ["NET: formula operand 'Gross' not found"]) ∧
    ∃ made summary u r,
      Import.rows .permissive s "P" .standard .standard false
        (Import.readRows marginTable .standard) = ({ s with nodes := s.nodes ++ made }, summary) ∧
      resolve { s with nodes := s.nodes ++ made } "P" = .ok (u, r) ∧
      u.nodes.map operands = [["GROSS"], [], ["GROSS"]] ∧ u.nodes.drop s.nodes.length = made := by
  have shown : ((([.initProject "P" "", .importTable "P" netTable (some .standard)] :
      List Call).foldlM run {}).toOption.bind fun s =>
        (resolve s "P").toOption.bind fun x =>
          (resolve (Import.rows .permissive s "P" .standard .standard false
            (Import.readRows marginTable .standard)).1 "P").toOption.map fun y =>
              (s.hasProject "P", s.nodes.map operands, x.2.warnings, y.1.nodes.map operands)) =
      some (true, [["Gross"]], ["NET: formula operand 'Gross' not found"],
        [["GROSS"], [], ["GROSS"]]) := by
    decide +kernel
  obtain ⟨s, calls, shown⟩ := Option.bind_eq_some_iff.mp shown
  obtain ⟨x, hx, shown⟩ := Option.bind_eq_some_iff.mp shown
  obtain ⟨y, hy, shown⟩ := Option.map_eq_some_iff.mp shown
  simp only [Prod.mk.injEq] at shown
  obtain ⟨known, stored, warned, rewritten⟩ := shown
  have reachable := reachable_foldlM .empty _ (ok_of_toOption calls)
  obtain ⟨⟨t, r, first, second⟩, after⟩ := resolve_settles s reachable "P" known
  obtain ⟨made, summary, u, r', imported, -, resolved, same⟩ := after .standard .standard false
    (Import.readRows marginTable .standard) (Import.trimmed_readRows marginTable .standard)
  rw [first] at hx
  rw [imported, resolved] at hy
  cases hx
  cases hy
  exact ⟨s, reachable, stored, ⟨t, r, first, second, warned⟩, made, summary, u, r', imported,
    resolved, rewritten, same⟩

end Service

end Rollup

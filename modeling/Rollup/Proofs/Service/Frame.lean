import Mathlib.Data.List.Basic
import Mathlib.Data.List.Forall2
import Mathlib.Tactic.SplitIfs
import Rollup.Proofs.Service.Provenance

/-!
# What a call leaves alone

A call that fails has written nothing, and one that succeeds changes the nodes of its own project
and the setting that it names at most. An import of a hierarchy file appends nodes; of those that
were there it changes the ones in which an operand is replaced by a hierarchy id.

The store keeps the constants of formulas as text, and a constant that is read and written again
need not come back as it was. So a node in which an operand is replaced can have other constants
afterwards.

Results:

* `resolvedAs_rewrite`: what resolving does to a node.
* `leaves_eq`: a call that fails leaves the store as it was.
* `Effect.others`, `Effect.settings`: a call leaves other projects and other settings alone.
* `Effect.kept_nodes`: what an import does to the nodes that were there.
* `frame_of_reachable`: what all calls on reachable stores leave alone.
-/

namespace Rollup

/-! ## Nodes whose references are resolved -/

/-- A rule after its formula was written again: its operand may be replaced by one of the hierarchy
    ids, and its constant is the one that the store keeps. -/
structure Rule.ResolvedAs (ids : List String) (r r' : Rule) : Prop where
  rest : r' = { r with operand := r'.operand, constant := r.constant.map Binary64.kept }
  operand : r'.operand = r.operand ∨ r'.operand ∈ ids

/-- A node in which operands are replaced by hierarchy ids. -/
structure Node.ResolvedAs (ids : List String) (n n' : Node) : Prop where
  rest : n' = { n with formula := n'.formula }
  formula : ∃ f f', n.formula = some f ∧ n'.formula = some f' ∧ f' = { f with rules := f'.rules } ∧
    List.Forall₂ (Rule.ResolvedAs ids) f.rules f'.rules

theorem Directory.resolvedAs_resolveRule (d : Directory) (owner : String) (r : Rule) :
    r.ResolvedAs (d.map (·.hierarchyId))
      { (d.resolveRule owner r).value with
        constant := (d.resolveRule owner r).value.constant.map Binary64.kept } := by
  unfold resolveRule
  split_ifs
  · exact ⟨rfl, Or.inl rfl⟩
  · split
    · exact ⟨rfl, Or.inl rfl⟩
    · rename_i h found
      exact ⟨rfl, Or.inr (d.hasId_iff.mp (d.hasId_of_lookup found))⟩
    · exact ⟨rfl, Or.inl rfl⟩
    · exact ⟨rfl, Or.inl rfl⟩

theorem Directory.resolvedAs_resolveFormula (d : Directory) (owner : String) (f : Formula) :
    List.Forall₂ (Rule.ResolvedAs (d.map (·.hierarchyId))) f.rules
      (d.resolveFormula owner f).value.kept.rules := by
  have rules : (d.resolveFormula owner f).value.kept.rules = f.rules.map fun r =>
      { (d.resolveRule owner r).value with
        constant := (d.resolveRule owner r).value.constant.map Binary64.kept } := by
    change (((f.rules.map (d.resolveRule owner)).map (·.value)).map _) = _
    rw [List.map_map, List.map_map]
    rfl
  rw [rules, List.forall₂_map_right_iff, List.forall₂_same]
  exact fun r _ => d.resolvedAs_resolveRule owner r

/-- Where the children of totals are known, only formulas are resolved. -/
theorem Directory.resolveFilter_of_known (d : Directory) (owner : String) {f : Filter}
    (known : ∀ t, f.total = some t → ∀ c ∈ t.children, c.hierarchyId.any d.hasId = true) :
    (d.resolveFilter owner f).value = f ∧ (d.resolveFilter owner f).count = 0 := by
  unfold resolveFilter
  cases total : f.total with
  | none =>
    refine ⟨?_, rfl⟩
    change { f with total := none } = f
    rw [← total]
  | some t =>
    refine ⟨?_, ?_⟩
    · change { f with total := some (d.resolveTotal owner t).value } = f
      rw [value_resolveTotal_of_known owner (known t total), ← total]
    · change (Resolved.all (d.resolveChild owner) t.children).count = 0
      rw [Resolved.count_all_eq_zero_iff]
      intro c hc
      rw [resolveChild, if_pos (known t total c hc)]
      rfl

/-- Resolving a settled node whose total has known children leaves it as it is, or replaces operands
    of its formula. -/
theorem Resolution.resolvedAs_rewrite {d : Directory} {n : Node} (settled : n.Settled)
    (children : n.ChildrenIn (d.map (·.hierarchyId))) :
    rewrite d n = n ∨ n.ResolvedAs (d.map (·.hierarchyId)) (rewrite d n) := by
  have filter : (Directory.resolveOption (d.resolveFilter n.hierarchyId) n.filter).value =
      n.filter ∧ (Directory.resolveOption (d.resolveFilter n.hierarchyId) n.filter).count = 0 := by
    cases own : n.filter with
    | none => exact ⟨rfl, rfl⟩
    | some f =>
      have known : ∀ t, f.total = some t → ∀ c ∈ t.children, c.hierarchyId.any d.hasId = true := by
        intro t ht c hc
        obtain ⟨k, hk, eq⟩ := children t (by rw [Node.total?, own, Option.bind_some, ht]) c hc
        rw [eq, Option.any_some]
        exact d.hasId_iff.mpr hk
      obtain ⟨value, count⟩ := d.resolveFilter_of_known n.hierarchyId known
      exact ⟨congrArg some value, count⟩
  unfold rewrite
  split_ifs with nothing
  · exact Or.inl rfl
  · have count : (d.resolveNode n).count =
        (Directory.resolveOption (d.resolveFormula n.hierarchyId) n.formula).count := by
      change _ + (Directory.resolveOption (d.resolveFilter n.hierarchyId) n.filter).count = _
      rw [filter.2]
      rfl
    cases own : n.formula with
    | none =>
      rw [count, own] at nothing
      exact absurd rfl nothing
    | some f =>
      have value : (d.resolveNode n).value.kept =
          { n with formula := some (d.resolveFormula n.hierarchyId f).value.kept } := by
        have resolved : (d.resolveNode n).value =
            { n with formula := some (d.resolveFormula n.hierarchyId f).value } := by
          change { n with formula := _, filter := _ } = _
          rw [filter.1, own]
          rfl
        have settled' :
            ({ n with formula := some (d.resolveFormula n.hierarchyId f).value } : Node).Settled :=
          ⟨settled.filter, settled.metadata⟩
        rw [resolved, Node.kept_of_settled settled']
        rfl
      rw [value]
      exact Or.inr ⟨rfl, f, _, own, rfl, rfl, d.resolvedAs_resolveFormula n.hierarchyId f⟩

/-! ## Calls that fail -/

namespace Service

/-- The store once an import has written its nodes and before references are resolved. -/
def written (s : Store) (project : String) (table : Table) (dialect : Option Dialect) :
    Except ServiceError Store := do
  requireProject s project
  match dialect.or (Dialect.ofFormat? (Format.detect table.headers).format) with
  | none => throw (.ofImport (.notAHierarchy (Format.detect table.headers).format))
  | some d =>
    ((Import.table .permissive s project d ((Settings.importOptions s (some project)).window d)
      table).mapError .ofImport).map (·.1)

/-- What a call leaves behind, and the error that it answers if any. Writes stay when a later part
    of the call fails: an import has written its nodes when it comes to resolving references. -/
def leaves (s : Store) : Call → Store × Option ServiceError
  | .importTable project table dialect =>
    match written s project table dialect with
    | .error e => (s, some e)
    | .ok imported =>
      if (Settings.importOptions s (some project)).resolveAfterImport then
        match resolve imported project with
        | .error e => (imported, some e)
        | .ok (resolved, _) => (resolved, none)
      else (imported, none)
  | c =>
    match run s c with
    | .error e => (s, some e)
    | .ok t => (t, none)

theorem run_importTable (s : Store) (project : String) (table : Table) (dialect : Option Dialect) :
    run s (.importTable project table dialect) =
      (written s project table dialect).bind fun imported =>
        if (Settings.importOptions s (some project)).resolveAfterImport then
          (resolve imported project).map (·.1)
        else .ok imported := by
  change (importTable s project table dialect).map (·.1) = _
  unfold importTable importTableIn written Import.table finishImport
  dsimp only
  generalize requireProject s project = known
  generalize dialect.or (Dialect.ofFormat? (Format.detect table.headers).format) = shown
  cases known with
  | error e => rfl
  | ok _ =>
    cases shown with
    | none => rfl
    | some d =>
      dsimp only [bind, Except.bind]
      generalize Import.tableIn .asUsed .permissive s project d
        ((Settings.importOptions s (some project)).window d) table = imported
      cases imported with
      | error e => rfl
      | ok x =>
        dsimp only [Except.mapError, Except.map]
        split_ifs
        · cases resolve x.1 project with
          | error e => rfl
          | ok r => rfl
        · rfl

/-- Once an import has written its nodes, its references can be resolved. -/
theorem resolve_written {s imported : Store} (wf : s.WellFormed) {project : String} {table : Table}
    {dialect : Option Dialect} (done : written s project table dialect = .ok imported) :
    ∃ r, resolve imported project = .ok r := by
  unfold written at done
  obtain ⟨_, -, done⟩ := Except.bind_eq_ok_iff.mp done
  split at done
  · cases done
  · rename_i d shown
    obtain ⟨⟨t, summary⟩, imports, rfl⟩ := map_eq_ok done
    have done := mapError_eq_ok imports
    have wf' := Import.wellFormed_table wf done
    have known : s.hasProject project = true := by
      by_contra unknown
      rw [Import.table, Import.tableIn_eq_error unknown] at done
      cases done
    obtain ⟨_, _, made, _, -, -, eq⟩ := Import.rows_outcome s project d
      ((Settings.importOptions s (some project)).window d) (table.hasColumn Column.isLeafNode)
      (Import.readRows table d) known wf.ids
      (fun n hn => wf.named n (Store.mem_nodesOf.mp hn).1) (wf.keys project)
    rw [Import.table_eq known, eq] at done
    cases done
    obtain ⟨report, resolved⟩ := Resolution.project_eq wf' known
    exact ⟨_, by rw [resolve, resolved]; rfl⟩

/-- A call that fails leaves the store as it was. -/
theorem leaves_eq {s : Store} (wf : s.WellFormed) (c : Call) :
    leaves s c = match run s c with
      | .error e => (s, some e)
      | .ok t => (t, none) := by
  cases c with
  | importTable project table dialect =>
    rw [run_importTable, leaves]
    cases done : written s project table dialect with
    | error e => rfl
    | ok imported =>
      obtain ⟨r, resolved⟩ := resolve_written wf done
      dsimp only [Except.bind]
      rw [resolved]
      split_ifs
      · rfl
      · rfl
  | initProject id name => rfl
  | importMappings project table => rfl
  | resolve project => rfl
  | setSetting project key value => rfl

end Service

/-! ## Calls that succeed -/

/-- The project that a call works on. -/
def Call.project? : Call → Option String
  | .initProject id _ => some (Text.trim id)
  | .importTable project .. | .importMappings project _ | .resolve project => some project
  | .setSetting .. => none

/-- The scope and the key of the setting that a call changes. -/
def Call.setting? : Call → Option (Scope × String)
  | .setSetting project key _ => some (Service.scopeOf project, key)
  | _ => none

namespace Service

section Imports

variable {s : Store} {project : String} {made : List Node}

theorem place_afterImport (n : Node) : (afterImport s project made n).place = n.place := by
  unfold afterImport
  split_ifs
  · exact Resolution.place_rewriteIn _ n project
  · rfl

theorem afterImport_of_ne {n : Node} (other : n.projectId ≠ project) :
    afterImport s project made n = n := by
  unfold afterImport
  split_ifs
  · exact if_neg other
  · rfl

variable {table : Table} {d : Dialect} {added : List Placeholder} {ids : List String}

/-- The nodes of a project after an import. -/
theorem Added.nodesOf_after (h : Added s project table d added ids made) (project' : String) :
    ({ s with nodes := (s.nodes ++ made).map (afterImport s project made) } : Store).nodesOf
        project' =
      (s.nodesOf project' ++ if project' = project then made else []).map
        (afterImport s project made) := by
  rw [← h.nodesOf project']
  exact Store.nodesOf_map (s := { s with nodes := s.nodes ++ made }) rfl
    (fun n _ => congrArg Node.Place.projectId (place_afterImport n)) project'

/-- A node that was there before an import stays, or operands of its formula are replaced. -/
theorem resolvedAs_afterImport (wf : s.WellFormed) {n : Node} (mem : n ∈ s.nodesOf project)
    (settled : n.Settled) :
    afterImport s project made n = n ∨
      n.ResolvedAs ((s.nodesOf project ++ made).map (·.hierarchyId))
        (afterImport s project made n) := by
  obtain ⟨stored, inProject⟩ := Store.mem_nodesOf.mp mem
  have ids : (Directory.ofNodes (s.nodesOf project ++ made)).map (·.hierarchyId) =
      (s.nodesOf project ++ made).map (·.hierarchyId) := by
    rw [Directory.ofNodes, List.map_map]
    rfl
  unfold afterImport
  split_ifs
  · rw [Resolution.rewriteIn, if_pos inProject, ← ids]
    refine Resolution.resolvedAs_rewrite settled fun t ht c hc => ?_
    obtain ⟨k, hk, eq⟩ := wf.totals n stored t ht c hc
    refine ⟨k, ?_, eq⟩
    rw [ids, List.map_append, ← inProject]
    exact List.mem_append_left _ hk
  · exact Or.inl rfl

end Imports

/-- A call leaves every stored node in its place. -/
theorem Effect.exists_place {s t : Store} {c : Call} (wf : s.WellFormed) (e : Effect s c t) {n : Node}
    (hn : n ∈ s.nodes) : ∃ m ∈ t.nodes, m.place = n.place := by
  cases e with
  | found | created | configured => exact ⟨n, hn, rfl⟩
  | imported new =>
    exact ⟨_, List.mem_map_of_mem (List.mem_append_left _ hn), place_afterImport n⟩
  | mapped => exact ⟨_, List.mem_map_of_mem hn, MappingImport.place_revised wf.ids _ _ hn⟩
  | resolved => exact ⟨_, List.mem_map_of_mem hn, Resolution.place_rewriteIn _ n _⟩

/-- A hierarchy id that is stored in a project stays there. -/
theorem Effect.exists_hierarchyId {s t : Store} {c : Call} (wf : s.WellFormed) (e : Effect s c t)
    {project id : String} (stored : ∃ n ∈ s.nodesOf project, n.hierarchyId = id) :
    ∃ m ∈ t.nodesOf project, m.hierarchyId = id := by
  obtain ⟨n, hn, rfl⟩ := stored
  obtain ⟨inStore, inProject⟩ := Store.mem_nodesOf.mp hn
  obtain ⟨m, hm, place⟩ := e.exists_place wf inStore
  exact ⟨m, Store.mem_nodesOf.mpr ⟨hm, (congrArg Node.Place.projectId place).trans inProject⟩,
    congrArg Node.Place.hierarchyId place⟩

/-- A call leaves all projects alone but its own. -/
theorem Effect.others {s t : Store} {c : Call} (wf : s.WellFormed) (e : Effect s c t) {q : String}
    (other : c.project? ≠ some q) : t.project? q = s.project? q ∧ t.nodesOf q = s.nodesOf q := by
  cases e with
  | found => exact ⟨rfl, rfl⟩
  | @created id name p free named =>
    refine ⟨?_, rfl⟩
    have ne : (p.id == q) = false := by
      rw [beq_eq_false_iff_ne, named.1]
      exact fun same => other (congrArg some same)
    change (s.projects ++ [p]).find? _ = s.projects.find? _
    rw [List.find?_append, List.find?_singleton, ne]
    exact Option.or_none
  | @imported project table dialect d added ids made new =>
    refine ⟨rfl, ?_⟩
    have ne : q ≠ project := fun same => other (congrArg some same.symm)
    rw [new.nodesOf_after, if_neg ne, List.append_nil]
    nth_rewrite 2 [← List.map_id (s.nodesOf q)]
    refine List.map_congr_left fun n hn => afterImport_of_ne ?_
    rw [(Store.mem_nodesOf.mp hn).2]
    exact ne
  | @mapped project table =>
    refine ⟨rfl, ?_⟩
    rw [MappingImport.nodesOf_replacing wf.ids]
    nth_rewrite 2 [← List.map_id (s.nodesOf q)]
    refine List.map_congr_left fun m hm => Node.replacedBy_of_notMem fun mem => ?_
    obtain ⟨hm, inProject⟩ := Store.mem_nodesOf.mp hm
    obtain ⟨n, hn, same⟩ := List.mem_map.mp mem
    obtain ⟨old, hold, eq⟩ := MappingImport.revises_finish
      ((MappingImport.Progress.sublist_revised _).subset hn)
    obtain ⟨hold, inOther⟩ := Store.mem_nodesOf.mp hold
    have id : n.id = old.id := congrArg Node.Place.id (Node.place_of_unmapped eq)
    have eq : m = old := List.inj_on_of_nodup_map wf.ids hm hold (same.symm.trans id)
    exact other (congrArg some (by rw [← inOther, ← eq, inProject]))
  | @resolved project =>
    refine ⟨rfl, ?_⟩
    have places := fun (n : Node) (_ : n ∈ s.nodes) => congrArg Node.Place.projectId
      (Resolution.place_rewriteIn (Directory.ofNodes (s.nodesOf project)) n project)
    rw [resolvedIn, Store.nodesOf_map rfl places]
    nth_rewrite 2 [← List.map_id (s.nodesOf q)]
    refine List.map_congr_left fun n hn => if_neg fun inProject => other ?_
    rw [← (Store.mem_nodesOf.mp hn).2, inProject]
    rfl
  | configured => exact ⟨rfl, rfl⟩

/-- A call leaves all settings alone but the one that it names. -/
theorem Effect.settings {s t : Store} {c : Call} (e : Effect s c t) {scope : Scope} {key : String}
    (other : c.setting? ≠ some (scope, key)) :
    Dict.get? key (t.settingsOf scope) = Dict.get? key (s.settingsOf scope) := by
  cases e with
  | @configured project key' value =>
    rw [Store.setting_setSetting, if_neg]
    rintro ⟨rfl, rfl⟩
    exact other rfl
  | found => rfl
  | created => rfl
  | imported => rfl
  | mapped => rfl
  | resolved => rfl

/-- An import keeps the nodes of its project in their places, with the new ones after them. If
    references are resolved, operands of formulas can be replaced by hierarchy ids. -/
theorem Effect.kept_nodes {s t : Store} (h : Reachable s) {project : String} {table : Table}
    {dialect : Option Dialect} (e : Effect s (.importTable project table dialect) t) :
    ∃ old new, t.nodesOf project = old ++ new ∧
      List.Forall₂ (fun n m => m = n ∨ n.ResolvedAs ((t.nodesOf project).map (·.hierarchyId)) m)
        (s.nodesOf project) old ∧
      ((Settings.importOptions s (some project)).resolveAfterImport = false →
        old = s.nodesOf project) := by
  cases e with
  | @imported _ _ _ d added ids made new =>
    have after := new.nodesOf_after project
    rw [if_pos rfl] at after
    have nodesOf := after.trans List.map_append
    refine ⟨_, _, nodesOf, ?_, fun off => ?_⟩
    · have ids : ((s.nodesOf project ++ made).map (afterImport s project made)).map
          (·.hierarchyId) = (s.nodesOf project ++ made).map (·.hierarchyId) := by
        rw [List.map_map]
        exact List.map_congr_left fun n _ =>
          congrArg Node.Place.hierarchyId (place_afterImport n)
      rw [after, ids, List.forall₂_map_right_iff, List.forall₂_same]
      exact fun n hn => resolvedAs_afterImport (wellFormed_of_reachable h) hn
        (provenance_of_reachable h n (Store.mem_nodesOf.mp hn).1).1
    · have same : afterImport s project made = id := by
        rw [afterImport, off]
        rfl
      rw [same, List.map_id]

/-- What calls on reachable stores leave alone. A call that fails leaves the store as it was. One
    that succeeds leaves alone all projects but its own and all settings but the one that it names.
    An import keeps the nodes of its project in their places with the new ones after them, and if
    references are resolved, operands of formulas can be replaced by hierarchy ids. -/
theorem frame_of_reachable (s : Store) (h : Reachable s) (c : Call) :
    (∀ t e, leaves s c = (t, some e) → run s c = .error e ∧ t = s) ∧
      (∀ t, leaves s c = (t, none) →
        run s c = .ok t ∧
          (∀ q, c.project? ≠ some q → t.project? q = s.project? q ∧ t.nodesOf q = s.nodesOf q) ∧
          (∀ scope key, c.setting? ≠ some (scope, key) →
            Dict.get? key (t.settingsOf scope) = Dict.get? key (s.settingsOf scope)) ∧
          ∀ project table dialect, c = .importTable project table dialect →
            ∃ old new, t.nodesOf project = old ++ new ∧
              List.Forall₂ (fun n m => m = n ∨
                n.ResolvedAs ((t.nodesOf project).map (·.hierarchyId)) m)
                (s.nodesOf project) old ∧
              ((Settings.importOptions s (some project)).resolveAfterImport = false →
                old = s.nodesOf project)) := by
  have wf := wellFormed_of_reachable h
  rw [leaves_eq wf]
  cases done : run s c with
  | error e' =>
    refine ⟨fun t e eq => ?_, fun t eq => ?_⟩
    · cases eq
      exact ⟨rfl, rfl⟩
    · cases eq
  | ok t' =>
    refine ⟨fun t e eq => (by cases eq), fun t eq => ?_⟩
    obtain rfl : t' = t := congrArg Prod.fst eq
    have effect := effect_of_run wf done
    refine ⟨rfl, fun q => effect.others wf, fun scope key => effect.settings, ?_⟩
    rintro project table dialect rfl
    exact effect.kept_nodes h

/-! ## An example -/

/-- The columns of a file with formulas. -/
def formulaColumns : List String :=
  ["HIERARCHY_ID", "HIERARCHY_NAME", "PARENT_ID", "FORMULA_GROUP_NAME", "FORMULA_OPERATION",
    "FORMULA_OPERAND", "FORMULA_CONSTANT"]

/-- A table whose only node refers to one that no file has brought yet. -/
def netTable : Table :=
  { headers := formulaColumns
    columns := formulaColumns
    rows := [⟨1, ["NET", "Net", "", "Net", "SUM", "Gross", "8.6234e-24"]⟩]
    problems := [] }

/-- A table with the node that the other one refers to. -/
def grossTable : Table :=
  { headers := formulaColumns
    columns := formulaColumns
    rows := [⟨1, ["GROSS", "Gross", "", "", "", "", ""]⟩]
    problems := [] }

/-- Resolving the operand of a rule can change its constant. -/
theorem formula_grossTable : ∃ s t, Reachable s ∧
    run s (.importTable "P" grossTable (some .standard)) = .ok t ∧
    (s.nodesOf "P").map (·.formula) =
      [some ⟨"Net", "NET", [⟨.sum, "Gross", 1, some ⟨false, 5868781925812042, -129⟩⟩], none⟩] ∧
    (t.nodesOf "P").map (·.formula) =
      [some ⟨"Net", "NET", [⟨.sum, "GROSS", 1, some ⟨false, 5868781925812043, -129⟩⟩], none⟩,
        none] := by
  have shown : ((([.initProject "P" "", .importTable "P" netTable (some .standard)] :
      List Call).foldlM run {}).toOption.bind fun s =>
        (run s (.importTable "P" grossTable (some .standard))).toOption.map fun t =>
          ((s.nodesOf "P").map (·.formula), (t.nodesOf "P").map (·.formula))) = some
      ([some ⟨"Net", "NET", [⟨.sum, "Gross", 1, some ⟨false, 5868781925812042, -129⟩⟩], none⟩],
        [some ⟨"Net", "NET", [⟨.sum, "GROSS", 1, some ⟨false, 5868781925812043, -129⟩⟩], none⟩,
          none]) := by
    decide +kernel
  exact exists_reachable_run shown

theorem frame_of_reachable_twoProjects : ∃ s t, Reachable s ∧
    run s (.importTable "Q" netTable (some .standard)) = .ok t ∧
    (s.nodesOf "P").map (·.hierarchyId) = ["A", "B"] ∧
    (t.nodesOf "Q").map (·.hierarchyId) = ["NET"] ∧ t.nodesOf "P" = s.nodesOf "P" := by
  have shown : ((([.initProject "P" "", .importTable "P" twoRows (some .standard),
      .initProject "Q" ""] : List Call).foldlM run {}).toOption.bind fun s =>
        (run s (.importTable "Q" netTable (some .standard))).toOption.map fun t =>
          ((s.nodesOf "P").map (·.hierarchyId), (t.nodesOf "Q").map (·.hierarchyId))) = some
      (["A", "B"], ["NET"]) := by
    decide +kernel
  obtain ⟨s, t, reachable, done, before, after⟩ := exists_reachable_run shown
  have left : leaves s (.importTable "Q" netTable (some .standard)) = (t, none) := by
    rw [leaves_eq (wellFormed_of_reachable reachable), done]
  obtain ⟨-, frame⟩ := frame_of_reachable s reachable (.importTable "Q" netTable (some .standard))
  obtain ⟨-, others, -⟩ := frame t left
  exact ⟨s, t, reachable, done, before, after, (others "P" (by decide)).2⟩

end Service

end Rollup

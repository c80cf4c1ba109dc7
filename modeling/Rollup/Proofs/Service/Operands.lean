import Mathlib.Data.List.Basic
import Mathlib.Tactic.SplitIfs
import Rollup.Proofs.Export.OperandCells
import Rollup.Proofs.Import.Operands
import Rollup.Proofs.Service.Identity
import Rollup.Proofs.Service.PlaceholderMappings

/-!
# Where the operands of formulas come from

An operand is a text from a row of the import that made its node, or the hierarchy id of a node that
it was resolved to. Standard rows are split at the separator of an operand cell, but a legacy row
gives its cell as it stands, and hierarchy ids can be any texts. So operands can contain the
separator, and an export writes them as if they were several.

Results:

* `Added.mem_operands_made`: the operands of a new node.
* `sources_of_run`: where the operands come from after some calls.
* `operands_of_run`: which operands can contain the separator, and which cells are read back.
* `operands_legacyNet`: an operand with the separator.
-/

namespace Rollup

/-! ## Resolving -/

/-- Resolving replaces operands by hierarchy ids of the directory. -/
theorem Directory.mem_operands_resolveNode {d : Directory} {n : Node} {o : String}
    (mem : o ∈ (d.resolveNode n).value.operands) : o ∈ n.operands ∨ o ∈ d.map (·.hierarchyId) := by
  have formula : (d.resolveNode n).value.formula =
      (resolveOption (d.resolveFormula n.hierarchyId) n.formula).value := rfl
  rw [Node.operands, formula] at mem
  cases hf : n.formula with
  | none =>
    rw [hf] at mem
    cases mem
  | some f =>
    rw [hf] at mem
    obtain ⟨r', hr', rfl⟩ := List.mem_map.mp mem
    obtain ⟨x, hx, rfl⟩ := List.mem_map.mp hr'
    obtain ⟨r, hr, rfl⟩ := List.mem_map.mp hx
    rw [Node.operands_of_formula hf]
    exact (d.resolvedAs_resolveRule n.hierarchyId r).operand.imp_left
      fun same => List.mem_map.mpr ⟨r, hr, same.symm⟩

theorem Resolution.mem_operands_rewriteIn {project : String} {d : Directory} {n : Node} {o : String}
    (mem : o ∈ (rewriteIn project d n).operands) :
    o ∈ n.operands ∨ n.projectId = project ∧ o ∈ d.map (·.hierarchyId) := by
  unfold rewriteIn rewrite at mem
  split_ifs at mem with inProject
  · exact Or.inl mem
  · rw [Node.operands_kept] at mem
    exact (Directory.mem_operands_resolveNode mem).imp_right fun known => ⟨inProject, known⟩
  · exact Or.inl mem

theorem MappingImport.operands_afterMappings (project : String) (t : Table) (n : Node) :
    (afterMappings project t n).operands = n.operands := by
  unfold afterMappings
  split_ifs
  · exact Node.operands_kept _
  · rfl

theorem Directory.map_hierarchyId_ofNodes (nodes : List Node) :
    (ofNodes nodes).map (·.hierarchyId) = nodes.map (·.hierarchyId) := by
  rw [ofNodes, List.map_map]
  rfl

/-- The table has a row in a group that gives the text as an operand. -/
def Table.Gives (t : Table) (d : Dialect) (g : RowGroup) (o : String) : Prop :=
  ∃ row ∈ g.rows, ∃ raw ∈ t.rows, t.hierarchyRow d (t.customFlagColumns d) raw = .ok row ∧
    o ∈ t.operandTexts d raw

/-- The operands of the node of a group are given by the table. -/
theorem Table.gives_of_mem {t : Table} {d : Dialect} {w : Window} {g : RowGroup}
    (hg : g ∈ (d.group w (Import.readRows t d)).1) {project o : String}
    (mem : o ∈ (g.node project).operands) : o = "" ∨ t.Gives d g o := by
  rcases RowGroup.mem_operands_node mem with empty | ⟨row, hrow, text, given, rfl⟩
  · exact Or.inl empty
  · obtain ⟨raw, hraw, read⟩ := Import.read_of_mem_readRows (Dialect.mem_of_mem_rows hg row hrow)
    rcases mem_operands_hierarchyRow read given with rfl | given
    · exact Or.inl rfl
    · rw [trimmed_operandTexts given]
      exact Or.inr ⟨row, hrow, raw, hraw, read, given⟩

namespace Service

/-! ## Imports -/

section Added

variable {s : Store} {project : String} {table : Table} {d : Dialect} {added : List Placeholder}
  {ids : List String} {made : List Node} (h : Added s project table d added ids made) {n : Node}
  {o : String}

include h

/-- The operands of a new node are given by its group, or they are hierarchy ids of the project. -/
theorem Added.mem_operands_made (keys : ((s.nodesOf project).map (·.hierarchyId)).Nodup)
    (hn : n ∈ made) (mem : o ∈ n.operands) :
    o = "" ∨ o ∈ (importPlan s project d table).nodeIds (s.nodesOf project) ∨
      ∃ q ∈ (importPlan s project d table).newGroups (Batch.ofStored (s.nodesOf project)),
        q.1.hierarchyId = n.hierarchyId ∧ table.Gives d q.1 o := by
  set p := importPlan s project d table
  obtain ⟨k, hk⟩ := List.getElem?_of_mem hn
  obtain ⟨e, _, here, rfl, formula, -⟩ := h.outcome.parts_made keys hk
  obtain ⟨draft, id, there, -, outline⟩ := h.outcome.made_at hk
  have key : draft.node.hierarchyId = n.hierarchyId := (congrArg Node.hierarchyId outline :).symm
  have known : (Directory.ofNodes (p.totalled (s.nodesOf project)).nodes).map (·.hierarchyId) =
      p.nodeIds (s.nodesOf project) := by
    rw [Directory.map_hierarchyId_ofNodes, Batch.nodes, List.map_map, ImportPlan.nodeIds]
    exact (p.agrees_totalled keys).1.map_eq (·.node.hierarchyId) fun _ => rfl
  have resolved : n.operands = ((Directory.ofNodes
      (p.totalled (s.nodesOf project)).nodes).resolveNode e.node).value.kept.operands := by
    rw [Node.operands, formula]
    rfl
  rw [resolved, Node.operands_kept] at mem
  rcases Directory.mem_operands_resolveNode mem with own | id
  · rw [ImportPlan.operands_entry h.outcome.drafted here there] at own
    rcases List.mem_append.mp (List.mem_of_getElem? there) with group | placeholder
    · obtain ⟨q, hq, rfl⟩ := List.mem_map.mp group
      exact (Table.gives_of_mem (ImportPlan.mem_groups_of_newGroups _ _ hq) own).imp_right
        fun given => Or.inr ⟨q, hq, key, given⟩
    · obtain ⟨hole, -, rfl⟩ := List.mem_map.mp placeholder
      cases own
  · exact Or.inr (Or.inl (known ▸ id))

/-- After an import, an operand of a node is what it was, or a hierarchy id of the project. -/
theorem Added.mem_operands_after (mem : o ∈ (afterImport s project made n).operands) :
    o ∈ n.operands ∨ n.projectId = project ∧
      o ∈ (importPlan s project d table).nodeIds (s.nodesOf project) := by
  unfold afterImport at mem
  split_ifs at mem
  · rw [← h.map_hierarchyId, ← Directory.map_hierarchyId_ofNodes]
    exact Resolution.mem_operands_rewriteIn mem
  · exact Or.inl mem

end Added

/-! ## Calls one after the other -/

/-- One of the calls is an import that makes the node with a hierarchy id from a group of rows, in
    the given dialect, and one of the rows gives the text as an operand. -/
def Given (calls : List Call) (d : Dialect) (project id o : String) : Prop :=
  ∃ before table dialect after s, calls = before ++ .importTable project table dialect :: after ∧
    before.foldlM run {} = .ok s ∧
    dialect.or (Dialect.ofFormat? (Format.detect table.headers).format) = some d ∧
    ∃ q ∈ (importPlan s project d table).newGroups (Batch.ofStored (s.nodesOf project)),
      q.1.hierarchyId = id ∧ table.Gives d q.1 o

theorem Given.concat {calls : List Call} {d : Dialect} {project id o : String}
    (h : Given calls d project id o) (c : Call) : Given (calls ++ [c]) d project id o := by
  obtain ⟨before, table, dialect, after, s, rfl, rest⟩ := h
  exact ⟨before, table, dialect, after ++ [c], s, by simp, rest⟩

/-- Where an operand of a node can come from after some calls. -/
inductive Source (calls : List Call) (s : Store) (n : Node) (o : String) : Prop where
  /-- Rules with a constant only have no operand. -/
  | constant (empty : o = "")
  /-- The operand was resolved, or happens to be an id. -/
  | node (stored : ∃ m ∈ s.nodesOf n.projectId, m.hierarchyId = o)
  /-- The operand was read with the node. -/
  | row {d : Dialect} (given : Given calls d n.projectId n.hierarchyId o)

section Calls

variable {calls : List Call} {s t : Store} {c : Call}

/-- A source stays one after a further call. -/
theorem Source.concat {n m : Node} {o : String} (h : Source calls s n o) (wf : s.WellFormed)
    (e : Effect s c t) (place : m.place = n.place) : Source (calls ++ [c]) t m o := by
  have projectId : m.projectId = n.projectId := congrArg Node.Place.projectId place
  have id : m.hierarchyId = n.hierarchyId := congrArg Node.Place.hierarchyId place
  cases h with
  | constant empty => exact .constant empty
  | node stored => exact .node (projectId ▸ e.exists_hierarchyId wf stored)
  | row given =>
    rw [← projectId, ← id] at given
    exact .row (given.concat c)

section Imports

variable {project : String} {table : Table} {dialect : Option Dialect} {d : Dialect}
  {added : List Placeholder} {ids : List String} {made : List Node}
  (new : Added s project table d added ids made) {n : Node} {o : String}

include new

/-- A hierarchy id of the project is a source after an import. -/
theorem Source.of_nodeIds (inProject : n.projectId = project)
    (mem : o ∈ (importPlan s project d table).nodeIds (s.nodesOf project)) :
    Source calls { s with nodes := (s.nodes ++ made).map (afterImport s project made) }
      (afterImport s project made n) o := by
  have there : (afterImport s project made n).projectId = project :=
    (congrArg Node.Place.projectId (place_afterImport n)).trans inProject
  rw [← new.hierarchyIds_after] at mem
  exact .node (there.symm ▸ List.mem_map.mp mem)

/-- The operands of a new node have a source after the import. -/
theorem Source.of_made (before : calls.foldlM run {} = .ok s)
    (shown : dialect.or (Dialect.ofFormat? (Format.detect table.headers).format) = some d)
    (hn : n ∈ made) (mem : o ∈ n.operands) :
    Source (calls ++ [.importTable project table dialect])
      { s with nodes := (s.nodes ++ made).map (afterImport s project made) }
      (afterImport s project made n) o := by
  have inProject := new.addable.inProject n hn
  have place : (afterImport s project made n).place = n.place := place_afterImport n
  have projectId : (afterImport s project made n).projectId = n.projectId :=
    congrArg Node.Place.projectId place
  have id : (afterImport s project made n).hierarchyId = n.hierarchyId :=
    congrArg Node.Place.hierarchyId place
  have wf := wellFormed_of_reachable (reachable_foldlM .empty calls before)
  rcases new.mem_operands_made (wf.keys project) hn mem with empty | known | ⟨q, hq, same, gives⟩
  · exact .constant empty
  · exact .of_nodeIds new inProject known
  · refine .row (d := d) ?_
    rw [projectId, id, inProject]
    exact ⟨calls, table, dialect, [], s, rfl, before, shown, q, hq, same, gives⟩

end Imports

/-- The operands after a call have sources, if those before it do. -/
theorem source_of_run (before : calls.foldlM run {} = .ok s) (step : run s c = .ok t)
    (sourced : ∀ n ∈ s.nodes, ∀ o ∈ n.operands, Source calls s n o) :
    ∀ m ∈ t.nodes, ∀ o ∈ m.operands, Source (calls ++ [c]) t m o := by
  have wf := wellFormed_of_reachable (reachable_foldlM .empty calls before)
  have effect := effect_of_run wf step
  have old : ∀ n ∈ s.nodes, ∀ o ∈ n.operands, ∀ m : Node, m.place = n.place →
      Source (calls ++ [c]) t m o :=
    fun n hn o ho _ place => (sourced n hn o ho).concat wf effect place
  intro m hm o ho
  cases c with
  | importTable project table dialect =>
    obtain ⟨⟨t', report⟩, eq, rfl⟩ := map_eq_ok step
    obtain ⟨-, shown, -⟩ := importTable_eq_ok eq
    obtain ⟨added, ids, made, new, rfl, -⟩ := importTable_outcome wf eq
    obtain ⟨n, hn, rfl⟩ := List.mem_map.mp hm
    rcases new.mem_operands_after ho with own | ⟨inProject, known⟩
    · rcases List.mem_append.mp hn with stored | fresh
      · exact old n stored o own _ (place_afterImport n)
      · exact .of_made new before shown fresh own
    · exact .of_nodeIds new inProject known
  | initProject name label =>
    cases effect with
    | found | created => exact old m hm o ho m rfl
  | setSetting project key value =>
    cases effect
    exact old m hm o ho m rfl
  | importMappings project table =>
    cases effect
    rw [MappingImport.replacing_finish wf.ids (wf.keys _)] at hm
    obtain ⟨n, hn, rfl⟩ := List.mem_map.mp hm
    rw [MappingImport.operands_afterMappings] at ho
    exact old n hn o ho _ (MappingImport.place_afterMappings project table n)
  | resolve project =>
    cases effect with
    | resolved =>
      obtain ⟨n, hn, rfl⟩ := List.mem_map.mp hm
      have place := Resolution.place_rewriteIn (Directory.ofNodes (s.nodesOf project)) n project
      rcases Resolution.mem_operands_rewriteIn ho with own | ⟨inProject, known⟩
      · exact old n hn o own _ place
      · rw [Directory.map_hierarchyId_ofNodes] at known
        have there : (Resolution.rewriteIn project (Directory.ofNodes (s.nodesOf project))
            n).projectId = project := (congrArg Node.Place.projectId place).trans inProject
        refine .node ?_
        rw [there]
        exact Effect.exists_hierarchyId wf (.resolved : Effect s (.resolve project) _)
          (List.mem_map.mp known)

/-- The operands after some calls have sources. -/
theorem sources_of_run (done : calls.foldlM run {} = .ok s) :
    ∀ n ∈ s.nodes, ∀ o ∈ n.operands, Source calls s n o := by
  induction calls using List.reverseRecOn generalizing s with
  | nil =>
    cases done
    simp
  | append_singleton calls c ih =>
    obtain ⟨s', before, step⟩ := foldlM_concat done
    exact source_of_run before step (ih before)

end Calls

theorem trim_of_source {calls : List Call} {s : Store} (wf : s.WellFormed) {n : Node} {o : String}
    (h : Source calls s n o) : Text.trim o = o := by
  cases h with
  | constant empty =>
    subst empty
    rfl
  | node stored =>
    obtain ⟨m, hm, rfl⟩ := stored
    exact wf.trimmed m (Store.mem_nodesOf.mp hm).1
  | row given =>
    obtain ⟨-, table, -, -, -, -, -, -, q, -, -, row, -, raw, -, -, mem⟩ := given
    exact Table.trimmed_operandTexts mem

/-- An operand with the separator is a hierarchy id or the whole operand cell of a legacy row. -/
theorem source_of_separator {calls : List Call} {s : Store} {n : Node} {o : String}
    (h : Source calls s n o) (several : Column.valueSeparator ∈ o.toList) :
    (∃ m ∈ s.nodesOf n.projectId, m.hierarchyId = o) ∨
      Given calls .legacy n.projectId n.hierarchyId o := by
  cases h with
  | constant empty => simp [empty] at several
  | node stored => exact Or.inl stored
  | @row d given =>
    cases d with
    | standard =>
      obtain ⟨-, table, -, -, -, -, -, -, q, -, -, row, -, raw, -, -, mem⟩ := given
      exact absurd several (Table.notMem_of_mem_operandTexts mem)
    | legacy => exact Or.inr given

/-- After some calls, the operands of formulas are trimmed. An operand is empty, or the hierarchy id
    of a node of the project, or a text from a row of the import that made its node. If it contains
    the separator, it is a hierarchy id or the whole operand cell of a legacy row. In an exported
    file, the rows of a formula have one operand cell for each operation, and a cell is read back as
    the operands iff none of them contains the separator. -/
theorem operands_of_run (calls : List Call) (s : Store) (done : calls.foldlM run {} = .ok s) :
    (∀ n ∈ s.nodes, ∀ o ∈ n.operands, Text.trim o = o ∧ Source calls s n o ∧
      (Column.valueSeparator ∈ o.toList →
        (∃ m ∈ s.nodesOf n.projectId, m.hierarchyId = o) ∨
          Given calls .legacy n.projectId n.hierarchyId o)) ∧
    ∀ project, s.hasProject project = true → ∃ (l : Layout) (blocks : List Export.Block),
      Column.formulaOperand ∈ l.header ∧
      exportHierarchy s project = .ok (l.write (blocks.flatMap Export.Block.records)) ∧
      (blocks.map (·.node)).Perm ((s.nodesOf project).filter fun n => !n.isPlaceholder) ∧
      ∀ b ∈ blocks, ∀ f, b.node.formula = some f → f.rules ≠ [] →
        b.records.map (l.get · Column.formulaOperand) =
          (Export.Sheet.rulesByOperation f.rules).map (fun c => Export.Sheet.operandCell c.2) ∧
        ∀ c ∈ Export.Sheet.rulesByOperation f.rules,
          ((Text.split Column.valueSeparator (Export.Sheet.operandCell c.2)).map Text.trim =
              c.2.map (·.operand) ↔
            ∀ r ∈ c.2, Column.valueSeparator ∉ r.operand.toList) := by
  have wf := wellFormed_of_reachable (reachable_foldlM .empty calls done)
  have sources := sources_of_run done
  refine ⟨fun n hn o ho => ?_, fun project known => ?_⟩
  · have source := sources n hn o ho
    exact ⟨trim_of_source wf source, source, source_of_separator source⟩
  · obtain ⟨l, blocks, header, text, perm, cells⟩ := Export.exists_operandBlocks
      (s.nodesOf project) (Settings.exportOptions s (some project))
    refine ⟨l, blocks, header, ?_, perm, fun b hb f hf some => ⟨cells b hb f hf some, fun c hc => ?_⟩⟩
    · rw [exportHierarchy, requireProject, if_pos known, ← text]
      rfl
    · have stored := (List.mem_filter.mp (perm.mem_iff.mp (List.mem_map_of_mem hb))).1
      refine Export.Sheet.split_operandCell_iff (fun r hr => ?_) (ne_nil_of_mem_buckets hc)
      refine trim_of_source wf (sources b.node (Store.mem_nodesOf.mp stored).1 r.operand ?_)
      rw [Node.operands_of_formula hf]
      exact List.mem_map_of_mem (Export.Sheet.mem_rulesByOperation hc r hr)

/-! ## Examples -/

/-- A legacy table whose only row has an operand with the separator. -/
def legacyNet : Table :=
  { headers := ["XREF_HIERARCHY_KEY", "LEVEL_1", "LEVEL_2", "ARITHMETIC_LOGIC", "FORMULA_PARAM_REF"]
    columns := ["XREF_HIERARCHY_KEY", "LEVEL_1", "LEVEL_2", "ARITHMETIC_LOGIC", "FORMULA_PARAM_REF"]
    rows := [⟨1, ["1", "Plan", "Net", "SUM", "A|B"]⟩]
    problems := [] }

/-- An operand with the separator is written as two. -/
theorem operands_legacyNet : ∃ s, Reachable s ∧
    (s.nodesOf "P").map (·.formula) = [some ⟨"Net", "NET", [⟨.sum, "A|B", 1, none⟩], none⟩] ∧
    (Text.split Column.valueSeparator
      (Export.Sheet.operandCell [⟨.sum, "A|B", 1, none⟩])).map Text.trim = ["A", "B"] := by
  have shown : ((([.initProject "P" "", .importTable "P" legacyNet (some .legacy)] :
      List Call).foldlM run {}).toOption.map fun s => (s.nodesOf "P").map (·.formula)) =
      some [some ⟨"Net", "NET", [⟨.sum, "A|B", 1, none⟩], none⟩] := by
    decide +kernel
  obtain ⟨s, done, formulas⟩ := Option.map_eq_some_iff.mp shown
  exact ⟨s, reachable_foldlM .empty _ (ok_of_toOption done), formulas, by decide +kernel⟩

/-- A table with a node whose hierarchy id contains the separator, and one that names it. -/
def namedParts : Table :=
  { headers := ["HIERARCHY_ID", "HIERARCHY_NAME", "FORMULA_OPERATION", "FORMULA_OPERAND"]
    columns := ["HIERARCHY_ID", "HIERARCHY_NAME", "FORMULA_OPERATION", "FORMULA_OPERAND"]
    rows := [⟨1, ["A|B", "Alpha", "", ""]⟩, ⟨2, ["NET", "Net", "SUM", "Alpha|Gross"]⟩]
    problems := [] }

/-- Calls that resolve an operand to that hierarchy id. -/
def namedCalls : List Call :=
  [.initProject "P" "", .importTable "P" namedParts (some .standard)]

theorem operands_of_run_namedCalls : ∃ s net, namedCalls.foldlM run {} = .ok s ∧
    net ∈ s.nodesOf "P" ∧ net.operands = ["A|B", "Gross"] ∧ Source namedCalls s net "A|B" ∧
    ∃ (l : Layout) (blocks : List Export.Block), ∃ b ∈ blocks, b.node = net ∧
      exportHierarchy s "P" = .ok (l.write (blocks.flatMap Export.Block.records)) ∧
      b.records.map (l.get · Column.formulaOperand) = ["A|B|Gross"] := by
  have shown : (namedCalls.foldlM run {}).toOption.map (fun s => (s.hasProject "P",
      (s.nodesOf "P").map fun n => (n.isPlaceholder, n.formula))) = some (true, [(false, none),
        (false, some ⟨"Net", "NET", [⟨.sum, "A|B", 1, none⟩, ⟨.sum, "Gross", 2, none⟩], none⟩)]) := by
    decide +kernel
  obtain ⟨s, done, shown⟩ := Option.map_eq_some_iff.mp shown
  have done := ok_of_toOption done
  obtain ⟨known, nodes⟩ := Prod.mk.inj shown
  obtain ⟨alpha, rest, nodes, -, shown⟩ := List.map_eq_cons_iff.mp nodes
  obtain ⟨net, rfl, second⟩ := List.map_eq_singleton_iff.mp shown
  obtain ⟨described, formula⟩ := Prod.mk.inj second
  have mem : net ∈ s.nodesOf "P" := by simp [nodes]
  have operands : net.operands = ["A|B", "Gross"] := Node.operands_of_formula formula
  obtain ⟨sources, exported⟩ := operands_of_run namedCalls s done
  obtain ⟨l, blocks, -, text, perm, cells⟩ := exported "P" known
  have written : net ∈ blocks.map (·.node) := by
    rw [perm.mem_iff, List.mem_filter, described]
    exact ⟨mem, rfl⟩
  obtain ⟨b, hb, rfl⟩ := List.mem_map.mp written
  obtain ⟨-, source, -⟩ := sources b.node (Store.mem_nodesOf.mp mem).1 "A|B" (by simp [operands])
  refine ⟨s, b.node, done, mem, operands, source, l, blocks, b, hb, rfl, text, ?_⟩
  rw [(cells b hb _ formula (by simp)).1]
  decide +kernel

end Service

end Rollup

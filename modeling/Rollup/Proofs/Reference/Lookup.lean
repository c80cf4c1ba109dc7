import Mathlib.Data.List.Basic
import Mathlib.Tactic.SplitIfs
import Rollup.Proofs.Reference

/-!
# What a reference is answered with

A reference that is the hierarchy id of a node stands for itself. Any other one stands for the
nodes that it names, and only if there are none, for those that it names up to case: an exact name
hides the others, also if several nodes share it. The answer is told by the distinct hierarchy ids
of these nodes, so it does not depend on the order of the nodes.

Resolving a node replaces operands that are answered with an id and ids of children that no node
has, and nothing else.

Results:

* `mem_candidates`: which hierarchy ids a reference can stand for.
* `lookup_eq_resolved_iff`, `lookup_eq_ambiguous_iff`, `lookup_eq_unresolved_iff`: the answers.
* `lookup_of_perm`: the answer does not depend on the order of the nodes.
* `value_resolveNode`: what resolving replaces.
* `lookup_exact`: all of this.
-/

namespace Rollup

/-- A node with its operands and the ids of the children of its total replaced. -/
def Node.replaceReferences (n : Node) (operand : String → String)
    (childId : TotalChild → Option String) : Node :=
  { n with
    formula := n.formula.map fun f =>
      { f with rules := f.rules.map fun r => { r with operand := operand r.operand } }
    filter := n.filter.map fun f =>
      { f with total := f.total.map fun t =>
        { t with children := t.children.map fun c => { c with hierarchyId := childId c } } } }

namespace Directory

/-- A hierarchy id that a trimmed reference can stand for: that of a node with this name or, only if
    no node has it, of one with this name in lower case. -/
def Candidate (nodes : List Node) (reference h : String) : Prop :=
  (∃ n ∈ nodes, n.hierarchyId = h ∧ Text.trim n.name = reference) ∨
    (∀ n ∈ nodes, Text.trim n.name ≠ reference) ∧
      ∃ n ∈ nodes, n.hierarchyId = h ∧ Text.lower (Text.trim n.name) = Text.lower reference

/-! ## Candidates -/

theorem hasId_ofNodes {nodes : List Node} {h : String} :
    (ofNodes nodes).hasId h = true ↔ ∃ n ∈ nodes, n.hierarchyId = h := by
  simp [hasId, ofNodes]

/-- The hierarchy ids of the nodes that are picked by their names. -/
theorem mem_picked {nodes : List Node} {pick : Referent → Bool} {h : String} :
    h ∈ Dict.sortedDistinct (((ofNodes nodes).filter pick).map (·.hierarchyId)) ↔
      ∃ n ∈ nodes, n.hierarchyId = h ∧
        pick ⟨n.hierarchyId, Text.trim n.name, Text.lower (Text.trim n.name)⟩ = true := by
  rw [Dict.mem_sortedDistinct]
  simp only [ofNodes, List.mem_map, List.mem_filter]
  constructor
  · rintro ⟨r, ⟨⟨n, hn, rfl⟩, picked⟩, rfl⟩
    exact ⟨n, hn, rfl, picked⟩
  · rintro ⟨n, hn, rfl, picked⟩
    exact ⟨_, ⟨⟨n, hn, rfl⟩, picked⟩, rfl⟩

theorem mem_candidates {nodes : List Node} {reference h : String} :
    h ∈ (ofNodes nodes).candidates reference ↔ Candidate nodes reference h := by
  unfold candidates Candidate
  dsimp only
  split
  · rename_i none
    -- no node has the name itself
    have unnamed : ∀ n ∈ nodes, Text.trim n.name ≠ reference := by
      intro n hn same
      have mem : n.hierarchyId ∈ Dict.sortedDistinct
          (((ofNodes nodes).filter (·.name == reference)).map (·.hierarchyId)) :=
        mem_picked.mpr ⟨n, hn, rfl, by simpa using same⟩
      rw [none] at mem
      cases mem
    rw [mem_picked]
    simp only [beq_iff_eq]
    constructor
    · exact fun found => Or.inr ⟨unnamed, found⟩
    · rintro (⟨n, hn, -, same⟩ | ⟨-, found⟩)
      · exact absurd same (unnamed n hn)
      · exact found
  · rename_i some
    rw [mem_picked]
    simp only [beq_iff_eq]
    constructor
    · exact fun found => Or.inl found
    · rintro (found | ⟨unnamed, -⟩)
      · exact found
      · refine absurd (List.eq_nil_iff_forall_not_mem.mpr fun k hk => ?_) some
        obtain ⟨n, hn, -, same⟩ := mem_picked.mp hk
        exact unnamed n hn (by simpa using same)

theorem ascending_candidates (d : Directory) (reference : String) :
    (d.candidates reference).Pairwise (· < ·) := by
  unfold candidates
  dsimp only
  split
  · exact Dict.sorted_sortedDistinct _
  · exact Dict.sorted_sortedDistinct _

/-! ## Answers -/

section Answers

variable {nodes : List Node} {reference : String}

theorem lookup_eq_alreadyId_iff : (ofNodes nodes).lookup reference = .alreadyId ↔
    ∃ n ∈ nodes, n.hierarchyId = Text.trim reference := by
  rw [← hasId_ofNodes]
  refine ⟨hasId_of_lookup_alreadyId _, fun known => ?_⟩
  rw [lookup, if_pos known]

/-- A reference that is no hierarchy id is answered by the list of its candidates. -/
theorem lookup_eq_iff (d : Directory) (reference : String) :
    (∀ h, d.lookup reference = .resolved h ↔
      d.hasId (Text.trim reference) = false ∧ d.candidates (Text.trim reference) = [h]) ∧
    (∀ hs, d.lookup reference = .ambiguous hs ↔
      d.hasId (Text.trim reference) = false ∧ d.candidates (Text.trim reference) = hs ∧
        2 ≤ hs.length) ∧
    (d.lookup reference = .unresolved ↔
      d.hasId (Text.trim reference) = false ∧ d.candidates (Text.trim reference) = []) := by
  unfold lookup
  dsimp only
  cases d.hasId (Text.trim reference) with
  | true => simp
  | false =>
    match d.candidates (Text.trim reference) with
    | [] => simp +contextual [eq_comm]
    | [h] => simp +contextual [eq_comm]
    | h :: k :: rest =>
      simp only [Bool.false_eq_true, if_false, reduceCtorEq, List.cons.injEq, and_false,
        implies_true, true_and, and_true, Lookup.ambiguous.injEq]
      rintro hs
      constructor
      · rintro rfl
        exact ⟨rfl, by simp⟩
      · exact And.left

theorem hasId_eq_false_iff {h : String} :
    (ofNodes nodes).hasId h = false ↔ ∀ n ∈ nodes, n.hierarchyId ≠ h := by
  rw [← Bool.not_eq_true, hasId_ofNodes]
  push Not
  rfl

/-- The candidates are an ascending list. -/
theorem candidates_eq_iff {hs : List String} : (ofNodes nodes).candidates reference = hs ↔
    hs.Pairwise (· < ·) ∧ ∀ k, k ∈ hs ↔ Candidate nodes reference k := by
  constructor
  · rintro rfl
    exact ⟨ascending_candidates _ _, fun k => mem_candidates⟩
  · rintro ⟨ascending, members⟩
    refine Dict.eq_of_ascending (ascending_candidates _ _) ascending fun k => ?_
    rw [mem_candidates, members k]

theorem lookup_eq_resolved_iff {h : String} : (ofNodes nodes).lookup reference = .resolved h ↔
    (∀ n ∈ nodes, n.hierarchyId ≠ Text.trim reference) ∧
      ∀ k, Candidate nodes (Text.trim reference) k ↔ k = h := by
  rw [((ofNodes nodes).lookup_eq_iff reference).1, hasId_eq_false_iff, candidates_eq_iff]
  simp only [List.pairwise_singleton, true_and, List.mem_singleton]
  exact and_congr_right fun _ => forall_congr' fun k => iff_comm

theorem lookup_eq_ambiguous_iff {hs : List String} :
    (ofNodes nodes).lookup reference = .ambiguous hs ↔
      (∀ n ∈ nodes, n.hierarchyId ≠ Text.trim reference) ∧ hs.Pairwise (· < ·) ∧
        (∀ k, k ∈ hs ↔ Candidate nodes (Text.trim reference) k) ∧ 2 ≤ hs.length := by
  rw [((ofNodes nodes).lookup_eq_iff reference).2.1, hasId_eq_false_iff, candidates_eq_iff,
    and_assoc]

theorem lookup_eq_unresolved_iff : (ofNodes nodes).lookup reference = .unresolved ↔
    (∀ n ∈ nodes, n.hierarchyId ≠ Text.trim reference) ∧
      ∀ k, ¬ Candidate nodes (Text.trim reference) k := by
  rw [((ofNodes nodes).lookup_eq_iff reference).2.2, hasId_eq_false_iff, candidates_eq_iff]
  simp

/-- The answer does not depend on the order of the nodes, nor on how often one occurs. -/
theorem lookup_of_perm {nodes' : List Node} (perm : nodes'.Perm nodes) :
    (ofNodes nodes').lookup reference = (ofNodes nodes).lookup reference := by
  have ids : (ofNodes nodes').hasId (Text.trim reference) =
      (ofNodes nodes).hasId (Text.trim reference) := by
    rw [Bool.eq_iff_iff, hasId_ofNodes, hasId_ofNodes]
    simp only [perm.mem_iff]
  have candidates : (ofNodes nodes').candidates (Text.trim reference) =
      (ofNodes nodes).candidates (Text.trim reference) := by
    refine candidates_eq_iff.mpr ⟨ascending_candidates _ _, fun k => ?_⟩
    rw [mem_candidates]
    simp only [Candidate, perm.mem_iff]
  rw [lookup, lookup, ids, candidates]

end Answers

/-! ## Replacements -/

section Replacements

variable (d : Directory)

/-- What an operand is replaced by: the id that it is answered with, unless it is blank. -/
def operandFor (operand : String) : String :=
  match d.lookup operand with
  | .resolved h => if Text.isAllBlank operand then operand else h
  | _ => operand

/-- The id that a child of a total has afterwards: its own if that is known, else the one that its
    name is or is answered with. -/
def childIdFor (c : TotalChild) : Option String :=
  if c.hierarchyId.any d.hasId then c.hierarchyId
  else match d.lookup c.name with
    | .alreadyId => some (Text.trim c.name)
    | .resolved h => some h
    | _ => c.hierarchyId

theorem value_resolveRule (owner : String) (r : Rule) :
    (d.resolveRule owner r).value = { r with operand := d.operandFor r.operand } := by
  unfold resolveRule operandFor
  cases Text.isAllBlank r.operand with
  | true => cases d.lookup r.operand <;> rfl
  | false => cases d.lookup r.operand <;> rfl

theorem value_resolveChild (owner : String) (c : TotalChild) :
    (d.resolveChild owner c).value = { c with hierarchyId := d.childIdFor c } := by
  unfold resolveChild childIdFor
  cases c.hierarchyId.any d.hasId with
  | true => rfl
  | false => cases d.lookup c.name <;> rfl

theorem value_all {α : Type} {f : α → Resolved α} {g : α → α} (same : ∀ a, (f a).value = g a)
    (xs : List α) : (Resolved.all f xs).value = xs.map g := by
  simp only [Resolved.all, List.map_map]
  exact List.map_congr_left fun a _ => same a

theorem value_resolveOption {α : Type} {f : α → Resolved α} {g : α → α}
    (same : ∀ a, (f a).value = g a) (o : Option α) : (resolveOption f o).value = o.map g := by
  cases o with
  | none => rfl
  | some a => exact congrArg some (same a)

theorem value_resolveFormula (owner : String) (f : Formula) :
    (d.resolveFormula owner f).value =
      { f with rules := f.rules.map fun r => { r with operand := d.operandFor r.operand } } :=
  congrArg (fun rules => { f with rules }) (value_all (d.value_resolveRule owner) f.rules)

theorem value_resolveTotal (owner : String) (t : Total) :
    (d.resolveTotal owner t).value =
      { t with children := t.children.map fun c => { c with hierarchyId := d.childIdFor c } } :=
  congrArg (fun children => { t with children }) (value_all (d.value_resolveChild owner) t.children)

/-- Resolving a node replaces its operands and the ids of the children of its total. -/
theorem value_resolveNode (n : Node) :
    (d.resolveNode n).value = n.replaceReferences d.operandFor d.childIdFor := by
  have formula := value_resolveOption (d.value_resolveFormula n.hierarchyId) n.formula
  have filter := value_resolveOption (f := d.resolveFilter n.hierarchyId) (fun f =>
    congrArg (fun total => { f with total })
      (value_resolveOption (d.value_resolveTotal n.hierarchyId) f.total)) n.filter
  rw [resolveNode, formula, filter]
  rfl

/-- An operand that is replaced is answered with what replaces it. -/
theorem lookup_of_operandFor_ne {operand : String} (changed : d.operandFor operand ≠ operand) :
    d.lookup operand = .resolved (d.operandFor operand) := by
  unfold operandFor at changed ⊢
  split at changed
  · rename_i h found
    split_ifs at changed with blank
    · exact absurd rfl changed
    · rw [found]
      simp only [if_neg blank]
  · exact absurd rfl changed

/-- A child whose id is replaced has none that a node has. -/
theorem hasId_of_childIdFor_ne {c : TotalChild} (changed : d.childIdFor c ≠ c.hierarchyId)
    {h : String} (own : c.hierarchyId = some h) : d.hasId h = false := by
  by_contra known
  rw [Bool.not_eq_false] at known
  refine changed (if_pos ?_)
  rw [own, Option.any_some]
  exact known

end Replacements

/-- References are looked up exactly, and the order of the nodes does not matter. A reference that
    is a hierarchy id stands for itself; any other one is answered with its only candidate, its
    candidates in ascending order, or not at all. Resolving a node replaces operands that are
    answered with an id, and ids of children that no node has, and leaves everything else. -/
theorem lookup_exact (nodes : List Node) (reference : String) :
    ((ofNodes nodes).lookup reference = .alreadyId ↔
      ∃ n ∈ nodes, n.hierarchyId = Text.trim reference) ∧
    (∀ h, (ofNodes nodes).lookup reference = .resolved h ↔
      (∀ n ∈ nodes, n.hierarchyId ≠ Text.trim reference) ∧
        ∀ k, Candidate nodes (Text.trim reference) k ↔ k = h) ∧
    (∀ hs, (ofNodes nodes).lookup reference = .ambiguous hs ↔
      (∀ n ∈ nodes, n.hierarchyId ≠ Text.trim reference) ∧ hs.Pairwise (· < ·) ∧
        (∀ k, k ∈ hs ↔ Candidate nodes (Text.trim reference) k) ∧ 2 ≤ hs.length) ∧
    ((ofNodes nodes).lookup reference = .unresolved ↔
      (∀ n ∈ nodes, n.hierarchyId ≠ Text.trim reference) ∧
        ∀ k, ¬ Candidate nodes (Text.trim reference) k) ∧
    (∀ nodes', nodes'.Perm nodes →
      (ofNodes nodes').lookup reference = (ofNodes nodes).lookup reference) ∧
    (∀ n, ((ofNodes nodes).resolveNode n).value =
      n.replaceReferences (ofNodes nodes).operandFor (ofNodes nodes).childIdFor) ∧
    (∀ operand, (ofNodes nodes).operandFor operand ≠ operand →
      (ofNodes nodes).lookup operand = .resolved ((ofNodes nodes).operandFor operand)) ∧
    ∀ c, (ofNodes nodes).childIdFor c ≠ c.hierarchyId →
      ∀ h, c.hierarchyId = some h → ∀ n ∈ nodes, n.hierarchyId ≠ h := by
  refine ⟨lookup_eq_alreadyId_iff, fun h => lookup_eq_resolved_iff,
    fun hs => lookup_eq_ambiguous_iff, lookup_eq_unresolved_iff, fun nodes' => lookup_of_perm,
    value_resolveNode _, fun operand => lookup_of_operandFor_ne _, ?_⟩
  intro c changed h own
  exact hasId_eq_false_iff.mp (hasId_of_childIdFor_ne _ changed own)

/-- Two nodes with the same name, and a third one with that name in capitals. -/
def sharedNames : List Node :=
  [{ hierarchyId := "B", projectId := "P", name := "Sales" },
    { hierarchyId := "C", projectId := "P", name := "SALES" },
    { hierarchyId := "A", projectId := "P", name := " Sales " }]

theorem lookup_exact_sharedNames :
    (ofNodes sharedNames.reverse).lookup "Sales " = .ambiguous ["A", "B"] ∧
      Candidate sharedNames "Sales" "A" ∧ ¬ Candidate sharedNames "Sales" "C" := by
  obtain ⟨-, -, ambiguous, -, order, -⟩ := lookup_exact sharedNames "Sales "
  have found : (ofNodes sharedNames).lookup "Sales " = .ambiguous ["A", "B"] := by decide +kernel
  obtain ⟨-, -, members, -⟩ := (ambiguous _).mp found
  have trimmed : Text.trim "Sales " = "Sales" := by decide +kernel
  rw [trimmed] at members
  refine ⟨(order _ sharedNames.reverse_perm).trans found, (members "A").mp (by decide), ?_⟩
  exact fun candidate => absurd ((members "C").mpr candidate) (by decide)

end Directory

end Rollup

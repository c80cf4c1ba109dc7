import Mathlib.Data.List.Basic
import Mathlib.Tactic.SplitIfs
import Rollup.Import

/-!
# The warnings of an import

Every warning ends with words of its own, so a warning about a node that is kept as a root is known
by its last words. Only linking and storing raise such warnings, whatever the file says.

Results:

* `countP_of_quiet`: quiet warnings do not count.
* `TotalPlan.plain_plan`, `plain_assemble`: planning and assembling a batch keep no node as a root.
* `plain_proposedParent`: neither does the search for a parent.
* `not_isUnstoredWarning_link`: linking raises no warning about a parent that was not stored.
-/

namespace Rollup

namespace Import

/-- A warning about a link that would close a cycle. -/
def isCycleWarning (w : String) : Bool :=
  "would create a cycle, kept as root".toList.isSuffixOf w.toList

/-- A warning about a parent that was not stored. -/
def isUnstoredWarning (w : String) : Bool :=
  "was not stored, kept as root".toList.isSuffixOf w.toList

/-- A warning about a node that is kept as a root. -/
def isRootWarning (w : String) : Bool :=
  "kept as root".toList.isSuffixOf w.toList

/-- None of the warnings is about a cycle. -/
def Quiet (ws : List String) : Prop :=
  ∀ w ∈ ws, isCycleWarning w = false

/-- None of the warnings is about a node that is kept as a root. -/
def Plain (ws : List String) : Prop :=
  ∀ w ∈ ws, isRootWarning w = false

/-! ## Last words -/

theorem isCycleWarning_append (text : String) :
    isCycleWarning (text ++ "' would create a cycle, kept as root") = true := by
  have words : "' would create a cycle, kept as root".toList =
      "' ".toList ++ "would create a cycle, kept as root".toList := by decide
  rw [isCycleWarning, List.isSuffixOf_iff_suffix, String.toList_append, words, ← List.append_assoc]
  exact List.suffix_append _ _

theorem isRootWarning_of_isCycleWarning {w : String} (h : isCycleWarning w = true) :
    isRootWarning w = true := by
  rw [isCycleWarning, List.isSuffixOf_iff_suffix] at h
  rw [isRootWarning, List.isSuffixOf_iff_suffix]
  exact List.IsSuffix.trans (by decide) h

theorem isRootWarning_of_isUnstoredWarning {w : String} (h : isUnstoredWarning w = true) :
    isRootWarning w = true := by
  rw [isUnstoredWarning, List.isSuffixOf_iff_suffix] at h
  rw [isRootWarning, List.isSuffixOf_iff_suffix]
  exact List.IsSuffix.trans (by decide) h

/-- A warning about a cycle is not about a parent that was not stored. -/
theorem not_isUnstoredWarning_of_isCycleWarning {w : String} (h : isCycleWarning w = true) :
    isUnstoredWarning w = false := by
  rw [← Bool.not_eq_true, isUnstoredWarning, List.isSuffixOf_iff_suffix]
  intro unstored
  rw [isCycleWarning, List.isSuffixOf_iff_suffix] at h
  rcases List.suffix_or_suffix_of_suffix h unstored with same | same
  · exact absurd same (by decide)
  · exact absurd same (by decide)

/-- A warning that ends with another letter is about no node that is kept as a root. -/
theorem not_isRootWarning {text ending : String}
    (last : ending.toList.getLast?.any (· ≠ 't') = true) :
    isRootWarning (text ++ ending) = false := by
  obtain ⟨c, last, other⟩ : ∃ c, ending.toList.getLast? = some c ∧ c ≠ 't' := by
    simpa [Option.any_eq_true] using last
  rw [← Bool.not_eq_true, isRootWarning, List.isSuffixOf_iff_suffix]
  rintro ⟨before, eq⟩
  have words : "kept as root".toList.getLast? = some 't' := by decide
  have same := congrArg List.getLast? eq
  rw [String.toList_append, List.getLast?_append, List.getLast?_append, words, last,
    Option.some_or, Option.some_or, Option.some.injEq] at same
  exact other same.symm

/-! ## Plain warnings -/

theorem plain_nil : Plain [] := by
  intro w hw
  cases hw

theorem plain_singleton {text ending : String}
    (last : ending.toList.getLast?.any (· ≠ 't') = true) : Plain [text ++ ending] := by
  intro w hw
  rw [List.mem_singleton.mp hw]
  exact not_isRootWarning last

theorem Plain.append {ws ws' : List String} (h : Plain ws) (h' : Plain ws') : Plain (ws ++ ws') := by
  intro w hw
  rcases List.mem_append.mp hw with hw | hw
  · exact h w hw
  · exact h' w hw

theorem plain_flatMap {α : Type} {xs : List α} {f : α → List String} (each : ∀ x ∈ xs, Plain (f x)) :
    Plain (xs.flatMap f) := by
  intro w hw
  obtain ⟨x, hx, hw⟩ := List.mem_flatMap.mp hw
  exact each x hx w hw

theorem Plain.avoids {ws : List String} (h : Plain ws) {is : String → Bool}
    (root : ∀ w, is w = true → isRootWarning w = true) : ∀ w ∈ ws, is w = false := by
  intro w hw
  rw [← Bool.not_eq_true]
  intro own
  have plain := h w hw
  rw [root w own] at plain
  cases plain

theorem Plain.quiet {ws : List String} (h : Plain ws) : Quiet ws :=
  h.avoids fun _ => isRootWarning_of_isCycleWarning

theorem countP_of_quiet {ws : List String} (h : Quiet ws) : ws.countP isCycleWarning = 0 := by
  rw [List.countP_eq_zero]
  intro w hw
  rw [h w hw]
  simp

end Import

open Import

/-! ## Planning -/

theorem TotalPlan.plain_plan (groups : List RowGroup) : Plain (plan groups).2 := by
  intro w hw
  obtain ⟨outcome, mem, eq⟩ := List.mem_filterMap.mp hw
  obtain ⟨b, -, raised⟩ := List.mem_filterMap.mp mem
  cases outcome with
  | ok t => cases eq
  | error message =>
    cases eq
    unfold ofLabel at raised
    dsimp only at raised
    split_ifs at raised
    split at raised
    · cases raised
    · split at raised
      · cases raised
        unfold repeatMessage
        rw [← String.append_assoc]
        exact not_isRootWarning (by decide)
      · cases raised
    · cases raised
      exact not_isRootWarning (by decide)

theorem TotalPlan.quiet_plan (groups : List RowGroup) : Quiet (plan groups).2 :=
  (plain_plan groups).quiet

/-! ## Nodes -/

theorem RowGroup.plain_ruleAt {row : HierarchyRow} {count i : Nat} {rule : Rule}
    {raised : List String} (h : ruleAt row count i = some (rule, raised)) : Plain raised := by
  unfold ruleAt at h
  dsimp only at h
  split_ifs at h
  · cases h
    exact plain_singleton (by decide)
  · cases h
    exact plain_nil

theorem RowGroup.plain_nodeWarnings (g : RowGroup) : Plain g.nodeWarnings := by
  refine List.foldlRecOn (motive := fun acc : List Rule × List String => Plain acc.2) g.rows
    addRules plain_nil fun acc plain row _ => ?_
  refine List.foldlRecOn (motive := fun acc : List Rule × List String => Plain acc.2) _ _ plain
    fun acc plain i _ => ?_
  split
  · exact plain
  · rename_i rule raised h
    exact plain.append (plain_ruleAt h)

theorem ImportPlan.plain_repeatWarnings (p : ImportPlan) : Plain p.repeatWarnings := by
  intro w hw
  obtain ⟨q, -, raised⟩ := List.mem_filterMap.mp hw
  obtain ⟨g, -, rfl⟩ := Option.map_eq_some_iff.mp raised
  exact not_isRootWarning (by decide)

theorem Assembly.plain_addGroup {p : ImportPlan} {repeats : List (Nat × String)}
    {existing : List (Nat × Nat)} {a : Assembly} (h : Plain a.warnings) (gi : Nat) (g : RowGroup) :
    Plain (addGroup p repeats existing a gi g).warnings := by
  unfold addGroup
  split_ifs
  · exact h
  · split
    · exact h
    · exact h.append g.plain_nodeWarnings

theorem Assembly.plain_addTotal {p : ImportPlan} {a : Assembly} (h : Plain a.warnings)
    (t : TotalPlan) : Plain (addTotal p a t).warnings := by
  unfold addTotal
  split
  · exact h.append (plain_singleton (by decide))
  · exact h

/-! ## References -/

namespace Directory

theorem plain_all {α : Type} {f : α → Resolved α} {xs : List α}
    (each : ∀ x ∈ xs, Plain (f x).warnings) : Plain (Resolved.all f xs).warnings := by
  refine plain_flatMap fun r hr => ?_
  obtain ⟨x, hx, rfl⟩ := List.mem_map.mp hr
  exact each x hx

theorem plain_resolveOption {α : Type} {f : α → Resolved α} (each : ∀ a, Plain (f a).warnings)
    (o : Option α) : Plain (resolveOption f o).warnings := by
  cases o with
  | none => exact plain_nil
  | some a => exact each a

theorem plain_ambiguous (owner role reference : String) (ids : List String) :
    Plain [ambiguousMessage owner role reference ids] :=
  plain_singleton (by decide)

theorem plain_missing (owner role reference : String) :
    Plain [missingMessage owner role reference] :=
  plain_singleton (by decide)

theorem plain_resolveRule (d : Directory) (owner : String) (r : Rule) :
    Plain (d.resolveRule owner r).warnings := by
  unfold resolveRule
  split_ifs
  · exact plain_nil
  · split
    · exact plain_nil
    · exact plain_nil
    · exact plain_ambiguous _ _ _ _
    · exact plain_missing _ _ _

theorem plain_resolveChild (d : Directory) (owner : String) (c : TotalChild) :
    Plain (d.resolveChild owner c).warnings := by
  unfold resolveChild
  split_ifs
  · exact plain_nil
  · split
    · exact plain_nil
    · exact plain_nil
    · exact plain_ambiguous _ _ _ _
    · exact plain_missing _ _ _

theorem plain_resolveFormula (d : Directory) (owner : String) (f : Formula) :
    Plain (d.resolveFormula owner f).warnings :=
  plain_all fun r _ => d.plain_resolveRule owner r

theorem plain_resolveTotal (d : Directory) (owner : String) (t : Total) :
    Plain (d.resolveTotal owner t).warnings :=
  plain_all fun c _ => d.plain_resolveChild owner c

theorem plain_resolveNode (d : Directory) (n : Node) : Plain (d.resolveNode n).warnings := by
  refine Plain.append ?_ ?_
  · exact plain_resolveOption (d.plain_resolveFormula n.hierarchyId) n.formula
  · refine plain_resolveOption (fun f => ?_) n.filter
    exact plain_resolveOption (d.plain_resolveTotal n.hierarchyId) f.total

end Directory

/-! ## Batches -/

theorem Batch.plain_resolveReferences (b : Batch) : Plain b.resolveReferences.2 := by
  refine plain_flatMap fun r hr => ?_
  obtain ⟨e, -, rfl⟩ := List.mem_map.mp hr
  dsimp only
  split_ifs
  · exact plain_nil
  · exact Directory.plain_resolveNode _ _

theorem plain_assemble (p : ImportPlan) (stored : List Node) :
    Plain (p.assemble stored).2.warnings := by
  refine (p.plain_repeatWarnings.append ?_).append (Batch.plain_resolveReferences _)
  refine List.foldlRecOn (motive := fun a : Assembly => Plain a.warnings) _ _ ?_
    fun a plain t _ => Assembly.plain_addTotal plain t
  exact List.foldlRecOn (motive := fun a : Assembly => Plain a.warnings) _ _ plain_nil
    fun a plain q _ => Assembly.plain_addGroup plain q.2 q.1

theorem quiet_assemble (p : ImportPlan) (stored : List Node) :
    Quiet (p.assemble stored).2.warnings :=
  (plain_assemble p stored).quiet

namespace Batch

theorem plain_xrefWarning (row : HierarchyRow) (name : String) : Plain (xrefWarning row name) := by
  intro w hw
  obtain ⟨key, -, rfl⟩ := List.mem_map.mp hw
  exact not_isRootWarning (by decide)

theorem plain_idWarning (row : HierarchyRow) (name : String) : Plain (idWarning row name) := by
  intro w hw
  obtain ⟨key, -, rfl⟩ := List.mem_map.mp hw
  exact not_isRootWarning (by decide)

theorem plain_legacyPathParent (b : Batch) (i : Nat) (e : BatchEntry) :
    Plain (b.legacyPathParent i e).2 := by
  unfold legacyPathParent
  split
  · exact plain_nil
  · dsimp only
    split_ifs
    · exact plain_nil
    · exact plain_singleton (by decide)

/-- The search for a parent keeps no node as a root. -/
theorem plain_proposedParent (b : Batch) (d : Dialect) (groups : List RowGroup) (i : Nat)
    (e : BatchEntry) : Plain (b.proposedParent d groups i e).2 := by
  cases d with
  | standard =>
    unfold proposedParent standardParent
    dsimp only
    split
    · exact plain_nil
    · rename_i row _
      split
      · exact plain_nil
      · split
        · exact plain_xrefWarning row _
        · have both := (plain_xrefWarning row e.node.name).append (plain_idWarning row e.node.name)
          split_ifs
          · exact both
          · exact both
  | legacy =>
    unfold proposedParent legacyParent
    dsimp only
    split
    · exact b.plain_legacyPathParent i e
    · rename_i row _
      split
      · exact plain_nil
      · exact (plain_xrefWarning row _).append (b.plain_legacyPathParent i e)

theorem quiet_proposedParent (b : Batch) (d : Dialect) (groups : List RowGroup) (i : Nat)
    (e : BatchEntry) : Quiet (b.proposedParent d groups i e).2 :=
  (b.plain_proposedParent d groups i e).quiet

/-- Linking a node raises no warning about a parent that was not stored. -/
theorem not_isUnstoredWarning_linkOne {d : Dialect} {groups : List RowGroup}
    {acc : Batch × List String} (h : ∀ w ∈ acc.2, isUnstoredWarning w = false) (i : Nat) :
    ∀ w ∈ (linkOne d groups acc i).2, isUnstoredWarning w = false := by
  unfold linkOne
  dsimp only
  split
  · exact h
  · rename_i e _
    have plain := (acc.1.plain_proposedParent d groups i e).avoids fun _ =>
      isRootWarning_of_isUnstoredWarning
    split
    · rename_i hp
      rw [hp] at plain
      exact List.forall_mem_append.mpr ⟨h, plain⟩
    · rename_i p raised hp
      rw [hp] at plain
      have both := List.forall_mem_append.mpr ⟨h, plain⟩
      split_ifs
      · refine List.forall_mem_append.mpr ⟨both, fun w hw => ?_⟩
        rw [List.mem_singleton.mp hw]
        exact not_isUnstoredWarning_of_isCycleWarning (isCycleWarning_append _)
      · exact both

/-- Linking raises no warning about a parent that was not stored. -/
theorem not_isUnstoredWarning_link (b : Batch) (d : Dialect) (groups : List RowGroup) :
    ∀ w ∈ (b.link d groups).2, isUnstoredWarning w = false :=
  List.foldlRecOn (motive := fun acc : Batch × List String =>
      ∀ w ∈ acc.2, isUnstoredWarning w = false) _ _ (by simp)
    fun _ h i _ => not_isUnstoredWarning_linkOne h i

end Batch

end Rollup

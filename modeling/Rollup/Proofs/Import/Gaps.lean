import Mathlib.Data.List.Basic
import Rollup.Proofs.Import.PrefixTree

/-!
# The paths that an import adds

A placeholder is added only where no stored node has its path: such a node stands for it. A group
is not held against the paths of stored nodes, only against their hierarchy ids. Within one legacy
file no path is added twice.

Results:

* `Outcome.path_added`: no stored node has the path of a placeholder that is added.
* `Outcome.nodup_paths`: an import of legacy rows adds no path twice.
-/

namespace Rollup

/-! ## Placeholders among stored nodes -/

namespace Assembly

theorem stored_addPlaceholder (p : ImportPlan) (b : Batch) (h : Placeholder) :
    (addPlaceholder p b h).stored = b.stored := by
  rcases addPlaceholder_cases p b h with ⟨-, eq⟩ | ⟨i, -, -, eq⟩ | ⟨-, -, -, eq⟩
  · rw [eq]
  · rw [eq]
    rfl
  · rw [eq]
    rfl

/-- An entry that one placeholder adds is its own, and no stored node has its path. -/
theorem mem_addPlaceholder {p : ImportPlan} {b : Batch} {stored : List Node}
    (keys : b.stored = Batch.storedKeys stored 0) {h : Placeholder} {e : BatchEntry}
    (mem : e ∈ (addPlaceholder p b h).entries) :
    e ∈ b.entries ∨ e = placeholderEntry p.project h ∧
      ∀ n ∈ stored, n.levelPath ≠ [] → n.levelPath ≠ h.path := by
  rcases addPlaceholder_cases p b h with ⟨-, eq⟩ | ⟨i, -, -, eq⟩ | ⟨-, -, unmatched, eq⟩
  · rw [eq] at mem
    exact Or.inl mem
  · rw [eq] at mem
    exact Or.inl mem
  · rw [eq] at mem
    refine (List.mem_append.mp mem).imp_right fun own => ⟨List.mem_singleton.mp own, ?_⟩
    intro n hn filled same
    have found : (b.storedMatch? h.hierarchyId h.path h.name).isSome = true :=
      (Batch.storedMatch?_isSome keys).mpr ⟨n, hn, Or.inr (Or.inl ⟨filled, same⟩)⟩
    rw [unmatched] at found
    cases found

/-- An entry that placeholders add is that of one of them, and no stored node has its path. -/
theorem mem_foldl_addPlaceholder {p : ImportPlan} {stored : List Node} {e : BatchEntry}
    (hs : List Placeholder) : ∀ b : Batch, b.stored = Batch.storedKeys stored 0 →
      e ∈ (hs.foldl (addPlaceholder p) b).entries →
      e ∈ b.entries ∨ ∃ h ∈ hs, e = placeholderEntry p.project h ∧
        ∀ n ∈ stored, n.levelPath ≠ [] → n.levelPath ≠ h.path := by
  induction hs with
  | nil => exact fun b _ mem => Or.inl mem
  | cons h hs ih =>
    intro b keys mem
    rw [List.foldl_cons] at mem
    rcases ih _ ((stored_addPlaceholder p b h).trans keys) mem with mem | ⟨h', hh', rest⟩
    · exact (mem_addPlaceholder keys mem).imp_right fun rest => ⟨h, by simp, rest⟩
    · exact Or.inr ⟨h', by simp [hh'], rest⟩

end Assembly

/-! ## Outcomes -/

namespace ImportPlan

open RowGroup.Legacy

section Outcome

variable {p : ImportPlan} {stored : List Node} {marks : Bool} {added : List Placeholder}
  {ids : List String} {made : List Node} (o : p.Outcome stored marks added ids made)

include o

/-- No stored node has the path of a placeholder that is added. -/
theorem Outcome.path_added {h : Placeholder} (mem : h ∈ added) :
    ∀ n ∈ stored, n.levelPath ≠ [] → n.levelPath ≠ h.path := by
  have entry : Assembly.placeholderEntry p.project h ∈ (p.filled stored).entries := by
    rw [o.drafted.entries, drafts]
    exact List.mem_append_right _ (List.mem_append_right _ (List.mem_map_of_mem mem))
  have keys : (p.grouped stored).stored = Batch.storedKeys stored 0 := by rw [grouped_eq]
  rcases Assembly.mem_foldl_addPlaceholder p.placeholders _ keys entry with old | ⟨h', -, eq, free⟩
  · -- stored nodes and groups have other origins
    rw [grouped_eq, List.mem_append, List.mem_map, List.mem_map] at old
    rcases old with ⟨n, -, eq⟩ | ⟨q, -, eq⟩
    · cases congrArg BatchEntry.origin eq
    · cases congrArg BatchEntry.origin eq
  · have path : h.path = h'.path := congrArg BatchEntry.path eq
    rw [path]
    exact free

/-- An import of legacy rows adds no path twice. -/
theorem Outcome.nodup_paths {project : String} {w : Window} {rs : List HierarchyRow}
    (plan : p = (ofRows project .legacy w rs).1) :
    ((p.newGroups (Batch.ofStored stored)).map (·.1.path) ++ added.map (·.path)).Nodup := by
  have all : (treePaths p.groups).Nodup := by
    rw [groups_legacy plan]
    exact nodup_treePaths w rs
  refine all.sublist (List.Sublist.append ?_ ?_)
  · rw [← map_zipIdx_fst (·.path) p.groups]
    exact List.filter_sublist.map _
  · rw [← placeholders_legacy plan]
    exact o.sublist.map _

end Outcome

end ImportPlan

end Rollup

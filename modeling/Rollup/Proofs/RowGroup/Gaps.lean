import Mathlib.Data.List.Induction
import Rollup.Proofs.LevelPath
import Rollup.Proofs.RowGroup.Legacy
import Rollup.Proofs.Sort

/-!
# The gaps between the paths of legacy groups

The placeholders of legacy groups stand for the proper leading parts of their paths that no group
has. Each is found at the first group that needs it and takes its sort values from there. Sorting by
length keeps the order of discovery within one length, in which a group finds one path at most.

Results:

* `foldl_discover_eq`: what is found at which group.
* `fillsGaps_missingAncestors`, `FillsGaps.unique`: the placeholders have all properties that are
  asked of them, and no other list has.
* `missingAncestors_exact`: both in one statement.
-/

namespace Rollup.RowGroup.Legacy

/-! ## Need -/

/-- A group needs the proper leading parts of its path. -/
def Needs (path : List String) (g : RowGroup) : Prop :=
  path ≠ [] ∧ path <+: g.path ∧ path ≠ g.path

instance (path : List String) : DecidablePred (Needs path) :=
  fun g => inferInstanceAs (Decidable (path ≠ [] ∧ path <+: g.path ∧ path ≠ g.path))

/-- The position of the first group that needs a path, and the number of groups if none does. -/
def firstNeed (groups : List RowGroup) (path : List String) : Nat :=
  groups.findIdx fun g => Needs path g

theorem mem_ancestors_iff_needs {path : List String} {g : RowGroup} :
    path ∈ LevelPath.ancestors g.path ↔ Needs path g :=
  LevelPath.mem_ancestors

theorem firstNeed_concat (groups : List RowGroup) (g : RowGroup) (path : List String) :
    firstNeed (groups ++ [g]) path =
      if firstNeed groups path < groups.length then firstNeed groups path
      else if Needs path g then groups.length else groups.length + 1 := by
  rw [firstNeed, List.findIdx_append, ← firstNeed]
  split_ifs with old new
  · rfl
  · simp [new]
  · simp [new, Nat.add_comm]

/-- The group at the position of the first need is the first group that needs the path. -/
theorem find?_needs {groups : List RowGroup} {path : List String} {g : RowGroup} {i : Nat}
    (here : groups[i]? = some g) (first : firstNeed groups path = i) :
    groups.find? (fun g => Needs path g) = some g := by
  obtain ⟨bound, here⟩ := List.getElem?_eq_some_iff.mp here
  obtain ⟨needs, none⟩ := (List.findIdx_eq bound).mp first
  refine List.find?_eq_some_iff_getElem.mpr ⟨here ▸ needs, i, bound, here, fun j hj => ?_⟩
  rw [none j hj]
  rfl

/-! ## Discovery -/

theorem pairwise_length_ancestors (path : List String) :
    (LevelPath.ancestors path).Pairwise fun a b => a.length ≠ b.length := by
  rw [LevelPath.ancestors, List.pairwise_map]
  have ascending : (List.range' 1 (path.length - 1)).Pairwise (· < ·) := List.pairwise_lt_range'
  refine ascending.imp_of_mem fun {m n} hm hn less => ?_
  rw [List.mem_range'_1] at hm hn
  rw [List.length_take_of_le (by omega), List.length_take_of_le (by omega)]
  exact Nat.ne_of_lt less

/-- One group finds those of its leading parts that no group has and that are not found yet. -/
theorem foldl_discover_block (present : List (List String)) (g : RowGroup)
    {parts : List (List String)} (nodup : parts.Nodup) : ∀ found : List Placeholder,
    (parts.map fun a => (g, a)).foldl (discover present) found =
      found ++ (parts.filter fun a => a ∉ present ∧ a ∉ found.map (·.path)).map
        (placeholder g) := by
  induction parts with
  | nil => intro found; simp
  | cons a parts ih =>
    intro found
    obtain ⟨fresh, nodup⟩ := List.nodup_cons.mp nodup
    have known : (present.contains a || found.any (·.path == a)) = true ↔
        ¬ (a ∉ present ∧ a ∉ found.map (·.path)) := by
      simp [or_iff_not_imp_left]
    rw [List.map_cons, List.foldl_cons, ih nodup, discover]
    by_cases new : a ∉ present ∧ a ∉ found.map (·.path)
    · have rest : parts.filter (fun b => b ∉ present ∧ b ∉ (found ++ [placeholder g a]).map (·.path)) =
          parts.filter fun b => b ∉ present ∧ b ∉ found.map (·.path) := by
        refine List.filter_congr fun b hb => ?_
        have apart : b ≠ a := by
          rintro rfl
          exact fresh hb
        simp [placeholder, apart]
      rw [if_neg (by rwa [known, not_not]), rest, List.filter_cons_of_pos (by simpa using new)]
      simp
    · rw [if_pos (known.mpr new), List.filter_cons_of_neg (by simpa using new)]

/-- The leading parts of a path that no group has, and that the group at position `i` is the first
    to need. -/
def firsts (present : List (List String)) (groups : List RowGroup) (path : List String) (i : Nat) :
    List (List String) :=
  (LevelPath.ancestors path).filter fun a => !present.contains a && firstNeed groups a == i

theorem mem_firsts {present : List (List String)} {groups : List RowGroup} {g : RowGroup} {i : Nat}
    {a : List String} :
    a ∈ firsts present groups g.path i ↔ Needs a g ∧ a ∉ present ∧ firstNeed groups a = i := by
  rw [firsts, List.mem_filter, mem_ancestors_iff_needs]
  simp

/-- What the groups find, one group after the other. -/
def findings (present : List (List String)) (groups : List RowGroup) : List Placeholder :=
  groups.zipIdx.flatMap fun q => (firsts present groups q.1.path q.2).map (placeholder q.1)

theorem mem_findings {present : List (List String)} {groups : List RowGroup} {h : Placeholder} :
    h ∈ findings present groups ↔ ∃ g, groups[firstNeed groups h.path]? = some g ∧
      h.path ∉ present ∧ h = placeholder g h.path := by
  rw [findings, List.mem_flatMap]
  constructor
  · rintro ⟨⟨g, i⟩, here, mem⟩
    obtain ⟨a, ha, rfl⟩ := List.mem_map.mp mem
    obtain ⟨-, absent, first⟩ := mem_firsts.mp ha
    refine ⟨g, ?_, absent, rfl⟩
    rw [show firstNeed groups (placeholder g a).path = i from first]
    exact List.mem_zipIdx_iff_getElem?.mp here
  · rintro ⟨g, here, absent, same⟩
    refine ⟨(g, firstNeed groups h.path), List.mem_zipIdx_iff_getElem?.mpr here, ?_⟩
    have needs : Needs h.path g := by
      simpa using List.find?_some (find?_needs here rfl)
    rw [same]
    exact List.mem_map_of_mem (mem_firsts.mpr ⟨needs, absent, rfl⟩)

theorem mem_map_path_findings {present : List (List String)} {groups : List RowGroup}
    {path : List String} : path ∈ (findings present groups).map (·.path) ↔
      path ∉ present ∧ firstNeed groups path < groups.length := by
  rw [List.mem_map]
  constructor
  · rintro ⟨h, hh, rfl⟩
    obtain ⟨g, here, absent, -⟩ := mem_findings.mp hh
    exact ⟨absent, (List.getElem?_eq_some_iff.mp here).1⟩
  · rintro ⟨absent, bound⟩
    exact ⟨placeholder groups[firstNeed groups path] path,
      mem_findings.mpr ⟨_, List.getElem?_eq_getElem bound, absent, rfl⟩, rfl⟩

/-- One more group does not change what the groups before it are the first to need. -/
theorem findings_concat (present : List (List String)) (groups : List RowGroup) (g : RowGroup) :
    findings present (groups ++ [g]) = findings present groups ++
      (firsts present (groups ++ [g]) g.path groups.length).map (placeholder g) := by
  have before : ∀ q ∈ groups.zipIdx, firsts present (groups ++ [g]) q.1.path q.2 =
      firsts present groups q.1.path q.2 := by
    intro q hq
    have bound : q.2 < groups.length :=
      (List.getElem?_eq_some_iff.mp (List.mem_zipIdx_iff_getElem?.mp hq)).1
    refine List.filter_congr fun a _ => congrArg _ ?_
    rw [firstNeed_concat, Bool.eq_iff_iff, beq_iff_eq, beq_iff_eq]
    split_ifs <;> omega
  rw [findings, List.zipIdx_append, List.flatMap_append, findings]
  congr 1
  · exact List.flatMap_congr fun q hq => by rw [before q hq]
  · simp

/-- Discovery along the groups in closed form. -/
theorem foldl_discover_eq (present : List (List String)) (groups : List RowGroup) :
    (needed groups).foldl (discover present) [] = findings present groups := by
  induction groups using List.reverseRecOn with
  | nil => rfl
  | append_singleton groups g ih =>
    have split : needed (groups ++ [g]) =
        needed groups ++ (LevelPath.ancestors g.path).map fun a => (g, a) := by
      simp [needed]
    have nodup : (LevelPath.ancestors g.path).Nodup :=
      (pairwise_length_ancestors g.path).imp fun apart same => apart (congrArg _ same)
    rw [split, List.foldl_append, ih, foldl_discover_block present g nodup, findings_concat]
    congr 2
    refine List.filter_congr fun a ha => ?_
    rw [Bool.eq_iff_iff, decide_eq_true_eq, mem_map_path_findings, Bool.and_eq_true,
      Bool.not_eq_true', List.contains_eq_mem, decide_eq_false_iff_not, beq_iff_eq,
      firstNeed_concat, if_pos (mem_ancestors_iff_needs.mp ha)]
    refine and_congr_right fun absent => ?_
    split_ifs with old
    · simp [absent, old, Nat.ne_of_lt old]
    · simp [old]

theorem discovered_eq_findings (groups : List RowGroup) :
    discovered groups = findings (groups.map (·.path)) groups := by
  rw [discovered_eq, foldl_discover_eq]

/-- Of two findings of one length, the one that comes first is needed by an earlier group. -/
theorem pairwise_findings (present : List (List String)) (groups : List RowGroup) :
    (findings present groups).Pairwise fun h h' => h.path.length = h'.path.length →
      firstNeed groups h.path < firstNeed groups h'.path := by
  rw [findings, List.pairwise_flatMap]
  constructor
  · intro q _
    rw [List.pairwise_map]
    exact ((pairwise_length_ancestors q.1.path).filter _).imp fun apart same => absurd same apart
  · have ascending : groups.zipIdx.Pairwise fun q q' => q.2 < q'.2 := by
      rw [← List.pairwise_map (f := Prod.snd), List.zipIdx_map_snd]
      exact List.pairwise_lt_range'
    refine ascending.imp fun {q q'} less h hh h' hh' _ => ?_
    obtain ⟨a, ha, rfl⟩ := List.mem_map.mp hh
    obtain ⟨a', ha', rfl⟩ := List.mem_map.mp hh'
    show firstNeed groups a < firstNeed groups a'
    rw [(mem_firsts.mp ha).2.2, (mem_firsts.mp ha').2.2]
    exact less

/-! ## Placeholders -/

theorem length_fit {α : Type} (n : Nat) (xs : List (Option α)) : (fit n xs).length = n := by
  rw [fit, List.length_append, List.length_take, List.length_replicate]
  omega

theorem getElem?_fit {α : Type} {n k : Nat} (bound : k < n) (xs : List (Option α)) :
    (fit n xs)[k]? = some xs[k]?.join := by
  rw [fit]
  by_cases inside : k < xs.length
  · rw [List.getElem?_append_left (by rw [List.length_take]; omega), List.getElem?_take_of_lt bound,
      List.getElem?_eq_getElem inside, Option.join_some]
  · have length : (xs.take n).length = xs.length := by rw [List.length_take]; omega
    rw [List.getElem?_append_right (by omega), List.getElem?_replicate_of_lt (by omega),
      List.getElem?_eq_none (by omega), Option.join_none]

/-- A placeholder bears the last step of its path as its name and the slug of the path as its id,
    and it has one sort value for each step, from the group where there is one. -/
structure Describes (h : Placeholder) (g : RowGroup) : Prop where
  name : h.path.getLast? = some h.name
  hierarchyId : h.hierarchyId = "SYNTH_" ++ Text.slugPath h.path
  length_sorts : h.sorts.length = h.path.length
  sorts : ∀ k < h.path.length, h.sorts[k]? = some g.pathSorts[k]?.join

theorem describes_placeholder (g : RowGroup) {path : List String} (ne : path ≠ []) :
    Describes (placeholder g path) g where
  name := by
    rw [placeholder, List.getLast?_eq_getLast_of_ne_nil ne, Option.getD_some]
  hierarchyId := rfl
  length_sorts := length_fit _ _
  sorts := fun _ bound => getElem?_fit bound _

/-- Two placeholders of one path that take their sort values from one group are equal. -/
theorem Describes.unique {h h' : Placeholder} {g : RowGroup} (of : Describes h g)
    (of' : Describes h' g) (same : h.path = h'.path) : h = h' := by
  have names : h.name = h'.name := by
    rw [← Option.some_inj, ← of.name, ← of'.name, same]
  have ids : h.hierarchyId = h'.hierarchyId := by
    rw [of.hierarchyId, of'.hierarchyId, same]
  have lengths : h.sorts.length = h'.sorts.length := by
    rw [of.length_sorts, of'.length_sorts, same]
  have values : h.sorts = h'.sorts := by
    refine List.ext_getElem? fun k => ?_
    by_cases bound : k < h.path.length
    · rw [of.sorts k bound, of'.sorts k (same ▸ bound)]
    · have length := of.length_sorts
      rw [List.getElem?_eq_none (by omega), List.getElem?_eq_none (by omega)]
  obtain ⟨id, name, path, sorts⟩ := h
  obtain ⟨id', name', path', sorts'⟩ := h'
  subst names ids same values
  rfl

/-- What is asked of the placeholders of groups. -/
structure FillsGaps (groups : List RowGroup) (found : List Placeholder) : Prop where
  /-- Their paths are those that some group needs and none has. -/
  mem_iff : ∀ path, path ∈ found.map (·.path) ↔
    (∃ g ∈ groups, Needs path g) ∧ path ∉ groups.map (·.path)
  /-- There is one for each path. -/
  nodup : (found.map (·.path)).Nodup
  /-- Shorter paths come first, and paths of one length in the order of the groups that are the
      first to need them. -/
  ordered : found.Pairwise fun h h' => h.path.length ≤ h'.path.length ∧
    (h.path.length = h'.path.length → firstNeed groups h.path < firstNeed groups h'.path)
  /-- Each takes its sort values from the first group that needs it. -/
  described : ∀ h ∈ found, ∃ g, groups.find? (fun g => Needs h.path g) = some g ∧ Describes h g
  /-- Together with the paths of the groups, all leading parts are there. -/
  closed : ∀ path ∈ groups.map (·.path) ++ found.map (·.path), ∀ part, part ≠ [] → part <+: path →
    part ∈ groups.map (·.path) ++ found.map (·.path)

theorem ordered_missingAncestors (groups : List RowGroup) :
    (missingAncestors groups).Pairwise fun h h' => h.path.length ≤ h'.path.length ∧
      (h.path.length = h'.path.length → firstNeed groups h.path < firstNeed groups h'.path) := by
  have found := pairwise_findings (groups.map (·.path)) groups
  rw [← discovered_eq_findings] at found
  exact (stable_stableSort_key (fun h : Placeholder => h.path.length) found).imp fun both =>
    ⟨both.1, fun same => both.2 same same⟩

theorem fillsGaps_missingAncestors (groups : List RowGroup) :
    FillsGaps groups (missingAncestors groups) where
  mem_iff := by
    intro path
    rw [mem_map_path_missingAncestors, and_comm]
    simp only [mem_ancestors_iff_needs]
  nodup := nodup_missingAncestors groups
  ordered := ordered_missingAncestors groups
  described := by
    intro h hh
    rw [missingAncestors, mem_stableSort, discovered_eq_findings] at hh
    obtain ⟨g, here, -, same⟩ := mem_findings.mp hh
    have first := find?_needs here rfl
    have needs : Needs h.path g := by simpa using List.find?_some first
    refine ⟨g, first, ?_⟩
    rw [same]
    exact describes_placeholder g needs.1
  closed := by
    intro path mem part ne leads
    rw [List.mem_append, mem_map_path_missingAncestors]
    by_cases present : part ∈ groups.map (·.path)
    · exact Or.inl present
    refine Or.inr ⟨present, ?_⟩
    -- some group has `path` as a leading part of its own, and so `part`
    have part_of : ∃ g ∈ groups, path <+: g.path := by
      rcases List.mem_append.mp mem with own | missing
      · obtain ⟨g, hg, rfl⟩ := List.mem_map.mp own
        exact ⟨g, hg, List.prefix_rfl⟩
      · obtain ⟨-, g, hg, ancestor⟩ := mem_map_path_missingAncestors.mp missing
        exact ⟨g, hg, (LevelPath.mem_ancestors.mp ancestor).2.1⟩
    obtain ⟨g, hg, under⟩ := part_of
    refine ⟨g, hg, LevelPath.mem_ancestors.mpr ⟨ne, leads.trans under, ?_⟩⟩
    rintro rfl
    exact present (List.mem_map_of_mem hg)

/-- There is only one list of placeholders with these properties. -/
theorem FillsGaps.unique {groups : List RowGroup} {found found' : List Placeholder}
    (fills : FillsGaps groups found) (fills' : FillsGaps groups found') : found = found' := by
  have sub : ∀ {found found' : List Placeholder}, FillsGaps groups found →
      FillsGaps groups found' → ∀ h ∈ found, h ∈ found' := by
    intro found found' fills fills' h hh
    have path : h.path ∈ found'.map (·.path) :=
      (fills'.mem_iff _).mpr ((fills.mem_iff _).mp (List.mem_map_of_mem hh))
    obtain ⟨h', hh', same⟩ := List.mem_map.mp path
    obtain ⟨g, first, of⟩ := fills.described h hh
    obtain ⟨g', first', of'⟩ := fills'.described h' hh'
    rw [same, first, Option.some.injEq] at first'
    rw [of.unique (first' ▸ of') same.symm]
    exact hh'
  have perm : found.Perm found' := (List.perm_ext_iff_of_nodup fills.nodup.of_map
    fills'.nodup.of_map).mpr fun h => ⟨sub fills fills' h, sub fills' fills h⟩
  refine perm.eq_of_pairwise (fun h h' _ _ before after => ?_) fills.ordered fills'.ordered
  have level := Nat.le_antisymm before.1 after.1
  exact absurd (before.2 level) (Nat.lt_asymm (after.2 level.symm))

/-- The placeholders of groups are the one list that fills the gaps between their paths. -/
theorem missingAncestors_exact (groups : List RowGroup) (found : List Placeholder) :
    FillsGaps groups found ↔ found = missingAncestors groups := by
  constructor
  · exact fun fills => fills.unique (fillsGaps_missingAncestors groups)
  · rintro rfl
    exact fillsGaps_missingAncestors groups

end Rollup.RowGroup.Legacy

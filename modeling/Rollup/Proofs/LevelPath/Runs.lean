import Mathlib.Data.List.Destutter
import Mathlib.Tactic.SplitIfs
import Rollup.LevelPath

/-!
# Level paths as runs of names

The columns of the window that are not blank fall into runs of equal names, with any blank columns
between them. A run gives one step of the path, and the sort value of the step is that of its first
column. So the steps of the path and their sort values go by the same columns.

Results:

* `resolve_eq_destutter`: the path as the names of the window without repeats.
* `steps_eq`: the steps as the columns that start a run.
* `resolve_of_isCanonical`: a path with nothing to trim, drop or collapse is resolved to itself.
* `resolve_canonical`: all of this for the path and the sort values of a row.
-/

namespace Rollup

/-- The cells inside the window. -/
def Window.cut (w : Window) (levels : List String) : List String :=
  (levels.take w.last).drop (w.first - 1)

namespace LevelPath

/-! ## Runs -/

section Runs

variable (name : Nat → Option String)

/-- The last name before a column. -/
def nameBefore : Nat → Option String
  | 0 => none
  | i + 1 => (name i).or (nameBefore i)

/-- A column starts a run if it has a name and the last name before it is another one. -/
def StartsRun (i : Nat) : Prop :=
  name i ≠ none ∧ name i ≠ nameBefore name i

instance : DecidablePred (StartsRun name) :=
  fun i => inferInstanceAs (Decidable (name i ≠ none ∧ name i ≠ nameBefore name i))

/-- The given columns with their names, if they have one. -/
def named (columns : List Nat) : List (Nat × String) :=
  columns.filterMap fun i => (name i).map fun v => (i, v)

variable {name}

theorem named_append (columns columns' : List Nat) :
    named name (columns ++ columns') = named name columns ++ named name columns' :=
  List.filterMap_append

theorem collapseAfter_concat (steps : List (Nat × String)) (step : Nat × String) :
    ∀ last : Option String, collapseAfter last (steps ++ [step]) = collapseAfter last steps ++
      if (steps.getLast?.map (·.2)).or last = some step.2 then [] else [step] := by
  induction steps with
  | nil =>
    intro last
    by_cases same : last = some step.2 <;> simp [collapseAfter, same]
  | cons first steps ih =>
    intro last
    have next : ((first :: steps).getLast?.map (·.2)).or last =
        (steps.getLast?.map (·.2)).or (some first.2) := by
      rw [List.getLast?_cons]
      cases steps.getLast? <;> rfl
    rw [List.cons_append, collapseAfter, collapseAfter, next]
    by_cases same : last = some first.2
    · rw [if_pos same, if_pos same, ih, same]
    · rw [if_neg same, if_neg same, ih, List.cons_append]

theorem getLast?_named (n : Nat) :
    (named name (List.range n)).getLast?.map (·.2) = nameBefore name n := by
  induction n with
  | zero => rfl
  | succ n ih =>
    rw [List.range_succ, named_append, nameBefore, ← ih]
    cases here : name n with
    | none => simp [named, here]
    | some v => simp [named, here]

/-- Collapsing leaves the columns that start a run. -/
theorem collapseAfter_named (n : Nat) : collapseAfter none (named name (List.range n)) =
    named name ((List.range n).filter (StartsRun name)) := by
  induction n with
  | zero => rfl
  | succ n ih =>
    rw [List.range_succ, List.filter_append, named_append, named_append, ← ih]
    cases here : name n with
    | none =>
      have stays : ¬ StartsRun name n := fun starts => starts.1 here
      simp [named, here, stays]
    | some v =>
      have starts : StartsRun name n ↔ ¬ nameBefore name n = some v := by
        rw [StartsRun, here]
        exact ⟨fun h same => h.2 same.symm, fun ne => ⟨nofun, fun same => ne same.symm⟩⟩
      have own : named name [n] = [(n, v)] := by simp [named, here]
      rw [own, collapseAfter_concat, getLast?_named, Option.or_none]
      by_cases same : nameBefore name n = some v
      · simp [same, starts, named]
      · simp [same, starts, own]

theorem named_filter_startsRun {columns : List Nat} (starts : ∀ i ∈ columns, StartsRun name i) :
    (named name columns).map (·.1) = columns := by
  induction columns with
  | nil => rfl
  | cons i columns ih =>
    obtain ⟨v, here⟩ := Option.ne_none_iff_exists'.mp (starts i (by simp)).1
    rw [named, List.filterMap_cons, here, Option.map_some, List.map_cons, ← named,
      ih fun j hj => starts j (by simp [hj])]

end Runs

/-! ## The columns of a row -/

/-- The name in a column: its trimmed cell, if the column is inside the window and not blank. -/
def nameAt? (w : Window) (levels : List String) (i : Nat) : Option String :=
  if w.covers i then (levels[i]?.map Text.trim).filter (· ≠ "") else none

/-- The columns of a row that start a run. -/
def runStarts (w : Window) (levels : List String) : List Nat :=
  (List.range levels.length).filter (StartsRun (nameAt? w levels))

theorem cells_eq_named (w : Window) (levels : List String) :
    cells w levels = named (nameAt? w levels) (List.range levels.length) := by
  have columns : List.range levels.length = levels.zipIdx.map (·.2) := by
    rw [List.range_eq_range', List.zipIdx_map_snd]
  rw [columns, named, List.filterMap_map, cells, ← List.filterMap_eq_map, ← List.filterMap_eq_filter,
    ← List.filterMap_eq_filter, List.filterMap_filterMap, List.filterMap_filterMap]
  refine List.filterMap_congr fun p hp => ?_
  have here : levels[p.2]? = some p.1 := List.mem_zipIdx_iff_getElem?.mp hp
  cases inside : w.covers p.2 with
  | false => simp [nameAt?, inside, Option.guard]
  | true =>
    by_cases blank : Text.trim p.1 = "" <;>
      simp [nameAt?, inside, here, blank, Option.guard, Option.filter]

/-- The steps of the path are the columns that start a run, with their names. -/
theorem steps_eq (w : Window) (levels : List String) :
    steps w levels = named (nameAt? w levels) (runStarts w levels) := by
  rw [steps, cells_eq_named, collapseAfter_named, runStarts]

/-- The columns of the steps are those that start a run. -/
theorem map_fst_steps (w : Window) (levels : List String) :
    (steps w levels).map (·.1) = runStarts w levels := by
  rw [steps_eq, named_filter_startsRun]
  exact fun i hi => by simpa using (List.mem_filter.mp hi).2

theorem map_fst_zipIdx_covers (w : Window) (levels : List String) : ∀ k : Nat,
    ((levels.zipIdx k).filter fun p => w.covers p.2).map (·.1) =
      (levels.take (w.last - k)).drop (w.first - 1 - k) := by
  induction levels with
  | nil => intro k; simp
  | cons cell levels ih =>
    intro k
    rw [List.zipIdx_cons, List.filter_cons]
    by_cases late : w.last ≤ k
    · have outside : w.covers k = false := by
        simp [Window.covers]
        omega
      rw [if_neg (by simp [outside]), ih, show w.last - k = 0 by omega,
        show w.last - (k + 1) = 0 by omega]
      simp
    · rw [show w.last - k = w.last - (k + 1) + 1 by omega, List.take_succ_cons]
      by_cases early : k + 1 < w.first
      · have outside : w.covers k = false := by
          simp [Window.covers]
          omega
        rw [if_neg (by simp [outside]), ih,
          show w.first - 1 - k = w.first - 1 - (k + 1) + 1 by omega, List.drop_succ_cons]
      · have inside : w.covers k = true := by
          simp [Window.covers]
          omega
        rw [if_pos inside, List.map_cons, ih, show w.first - 1 - k = 0 by omega,
          show w.first - 1 - (k + 1) = 0 by omega]
        simp

theorem map_snd_cells (w : Window) (levels : List String) :
    (cells w levels).map (·.2) = ((w.cut levels).map Text.trim).filter (· ≠ "") := by
  have inside := map_fst_zipIdx_covers w levels 0
  rw [Nat.sub_zero, Nat.sub_zero] at inside
  rw [Window.cut, ← inside, cells]
  simp [List.filter_map, Function.comp_def]

theorem map_snd_collapseAfter_some (steps : List (Nat × String)) : ∀ v : String,
    v :: (collapseAfter (some v) steps).map (·.2) = (steps.map (·.2)).destutter' (· ≠ ·) v := by
  induction steps with
  | nil => exact fun _ => rfl
  | cons step steps ih =>
    intro v
    rw [collapseAfter, List.map_cons]
    by_cases same : v = step.2
    · rw [if_pos (congrArg some same), ih, List.destutter'_cons_neg _ (not_not.mpr same)]
    · rw [if_neg (fun e => same (Option.some.inj e)), List.map_cons, ih,
        List.destutter'_cons_pos _ same]

/-- The path of a row: the names inside the window, without those that repeat the one before. -/
theorem resolve_eq_destutter (w : Window) (levels : List String) : resolve w levels =
    (((w.cut levels).map Text.trim).filter (· ≠ "")).destutter (· ≠ ·) := by
  rw [resolve, steps, ← map_snd_cells]
  cases cells w levels with
  | nil => rfl
  | cons step rest =>
    rw [collapseAfter, if_neg nofun, List.map_cons, map_snd_collapseAfter_some, List.map_cons,
      List.destutter_cons']

/-! ## Canonical paths -/

/-- A path with nothing to trim, drop or collapse. -/
structure IsCanonical (path : List String) : Prop where
  plain : ∀ v ∈ path, Text.trim v = v ∧ v ≠ ""
  apart : path.IsChain (· ≠ ·)

theorem isCanonical_resolve (w : Window) (levels : List String) :
    IsCanonical (resolve w levels) where
  plain := by
    intro v hv
    rw [resolve_eq_destutter] at hv
    obtain ⟨mem, filled⟩ := List.mem_filter.mp ((List.destutter_sublist _ _).mem hv)
    obtain ⟨cell, -, rfl⟩ := List.mem_map.mp mem
    exact ⟨Text.trim_trim cell, by simpa using filled⟩
  apart := by
    rw [resolve_eq_destutter]
    exact List.isChain_destutter _ _

/-- A canonical path is resolved to itself by a window that starts at its first step and covers
    all of them. -/
theorem resolve_of_isCanonical {path : List String} (canonical : IsCanonical path) {w : Window}
    (first : w.first = 1) (covers : path.length ≤ w.last) : resolve w path = path := by
  have whole : w.cut path = path := by
    rw [Window.cut, first, List.take_of_length_le covers, Nat.sub_self, List.drop_zero]
  have trimmed : path.map Text.trim = path := by
    rw [List.map_congr_left fun v hv => (canonical.plain v hv).1, List.map_id']
  have filled : path.filter (· ≠ "") = path :=
    List.filter_eq_self.mpr fun v hv => decide_eq_true (canonical.plain v hv).2
  rw [resolve_eq_destutter, whole, trimmed, filled]
  exact List.destutter_of_isChain _ _ canonical.apart

/-! ## Paths and sort values -/

/-- The step of the path and the sort value that come from the same column. -/
theorem getElem?_resolve (w : Window) (levels : List String) (sorts : List (Option Int)) (k : Nat) :
    (resolve w levels)[k]? = (runStarts w levels)[k]?.bind (nameAt? w levels) ∧
      (resolveSorts w levels sorts)[k]? = (runStarts w levels)[k]?.map fun i : Nat => sorts[i]?.join := by
  have columns := congrArg (·[k]?) (map_fst_steps w levels)
  rw [List.getElem?_map] at columns
  rw [resolve, resolveSorts, List.getElem?_map, List.getElem?_map, ← columns]
  cases here : (steps w levels)[k]? with
  | none => exact ⟨rfl, rfl⟩
  | some step =>
    refine ⟨?_, rfl⟩
    have mem := List.mem_of_getElem? here
    rw [steps_eq] at mem
    obtain ⟨i, -, own⟩ := List.mem_filterMap.mp mem
    obtain ⟨v, name, rfl⟩ := Option.map_eq_some_iff.mp own
    exact name.symm

/-- The path of a row consists of the names inside the window without those that repeat the name
    before, so it is canonical. There is one sort value for each step, which is that of the first
    column of its run. Resolving the path once more gives the same path. -/
theorem resolve_canonical (w : Window) (levels : List String) (sorts : List (Option Int)) :
    resolve w levels = (((w.cut levels).map Text.trim).filter (· ≠ "")).destutter (· ≠ ·) ∧
      IsCanonical (resolve w levels) ∧
      (resolveSorts w levels sorts).length = (resolve w levels).length ∧
      (∀ k : Nat, (resolve w levels)[k]? = (runStarts w levels)[k]?.bind (nameAt? w levels) ∧
        (resolveSorts w levels sorts)[k]? =
          (runStarts w levels)[k]?.map fun i : Nat => sorts[i]?.join) ∧
      ∀ w' : Window, w'.first = 1 → (resolve w levels).length ≤ w'.last →
        resolve w' (resolve w levels) = resolve w levels := by
  refine ⟨resolve_eq_destutter w levels, isCanonical_resolve w levels, ?_,
    getElem?_resolve w levels sorts,
    fun w' first covers => resolve_of_isCanonical (isCanonical_resolve w levels) first covers⟩
  rw [resolve, resolveSorts, List.length_map, List.length_map]

/-- Blanks inside a run, and a name that comes back after another one. -/
theorem resolve_canonical_costs :
    resolve .standard (resolve .legacy ["FY", " Costs", "", "Costs ", "Rent", "Costs"]) =
        ["Costs", "Rent", "Costs"] ∧
      resolveSorts .legacy ["FY", " Costs", "", "Costs ", "Rent", "Costs"]
        [some 0, some 1, some 2, some 3, none, some 5] = [some 1, none, some 5] := by
  have own : resolve .legacy ["FY", " Costs", "", "Costs ", "Rent", "Costs"] =
      ["Costs", "Rent", "Costs"] := by decide +kernel
  obtain ⟨-, -, -, -, again⟩ := resolve_canonical .legacy
    ["FY", " Costs", "", "Costs ", "Rent", "Costs"] []
  rw [again .standard rfl (by rw [own]; decide)]
  exact ⟨own, by decide +kernel⟩

end LevelPath

end Rollup

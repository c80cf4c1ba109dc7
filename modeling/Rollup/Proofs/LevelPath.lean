import Mathlib.Data.List.Basic
import Mathlib.Data.List.Chain
import Mathlib.Tactic.SplitIfs
import Rollup.LevelPath

/-!
# Level paths

The ancestors of a path are its proper leading parts. Names that stand side by side in the first
columns are read as far as the window reaches, but a name that repeats its neighbour gives no step
of its own, and its column no sort value.

Results:

* `mem_ancestors`: the ancestors of a path.
* `steps_of_names`: the steps of the path.
* `resolveSorts_of_names`: the sort values of the steps.
-/

namespace Rollup.LevelPath

/-! ## Leading parts -/

/-- The ancestors of a path are its proper leading parts. -/
theorem mem_ancestors {path q : List String} :
    q ∈ ancestors path ↔ q ≠ [] ∧ q <+: path ∧ q ≠ path := by
  rw [ancestors, List.mem_map]
  constructor
  · rintro ⟨n, hn, rfl⟩
    rw [List.mem_range'_1] at hn
    have length : (path.take n).length = n := List.length_take_of_le (by omega)
    refine ⟨?_, List.take_prefix n path, ?_⟩
    · rw [← List.length_pos_iff]
      omega
    · intro same
      rw [same] at length
      omega
  · rintro ⟨ne, part, proper⟩
    refine ⟨q.length, ?_, (List.prefix_iff_eq_take.mp part).symm⟩
    have positive := List.length_pos_iff.mpr ne
    have shorter : q.length ≠ path.length := fun e => proper (part.eq_of_length e)
    have := part.length_le
    rw [List.mem_range'_1]
    omega

/-! ## Names side by side -/

/-- The name at a position does not repeat the one before. -/
def IsFresh (names : List String) (k : Nat) : Prop :=
  k = 0 ∨ names[k - 1]? ≠ names[k]?

instance (names : List String) : DecidablePred (IsFresh names) :=
  fun k => inferInstanceAs (Decidable (k = 0 ∨ names[k - 1]? ≠ names[k]?))

/-- No position repeats the one before it iff no name stands next to its like. -/
theorem isFresh_iff_isChain {names : List String} :
    (∀ k < names.length, IsFresh names k) ↔ names.IsChain (· ≠ ·) := by
  rw [List.isChain_iff_getElem]
  constructor
  · intro fresh k bound same
    rcases fresh (k + 1) bound with zero | apart
    · exact Nat.succ_ne_zero k zero
    · rw [Nat.add_sub_cancel, List.getElem?_eq_getElem bound,
        List.getElem?_eq_getElem (Nat.lt_of_succ_lt bound)] at apart
      exact apart (congrArg some same)
  · intro apart k bound
    cases k with
    | zero => exact Or.inl rfl
    | succ k =>
      refine Or.inr fun same => apart k bound ?_
      rw [Nat.add_sub_cancel, List.getElem?_eq_getElem bound,
        List.getElem?_eq_getElem (Nat.lt_of_succ_lt bound)] at same
      exact Option.some.inj same

/-- Collapsing keeps the steps whose name is not that of the step before. -/
theorem collapseAfter_range' (f : Nat → String) (n : Nat) : ∀ (a : Nat) (last : Option String),
    collapseAfter last ((List.range' a n).map fun k => (k, f k)) =
      ((List.range' a n).filter fun k =>
        (if k = a then last else some (f (k - 1))) ≠ some (f k)).map fun k => (k, f k) := by
  induction n with
  | zero => exact fun _ _ => rfl
  | succ n ih =>
    intro a last
    have rest : (List.range' (a + 1) n).filter (fun k =>
        (if k = a + 1 then some (f a) else some (f (k - 1))) ≠ some (f k)) =
        (List.range' (a + 1) n).filter fun k =>
          (if k = a then last else some (f (k - 1))) ≠ some (f k) := by
      refine List.filter_congr fun k hk => ?_
      have above := (List.mem_range'_1.mp hk).1
      rw [if_neg (show k ≠ a by omega)]
      split_ifs with next
      · rw [next, Nat.add_sub_cancel]
      · rfl
    rw [List.range'_succ, List.map_cons, collapseAfter, List.filter_cons]
    by_cases same : last = some (f a)
    · subst same
      rw [if_pos rfl, ih, rest]
      simp
    · rw [if_neg same, ih, rest]
      simp [same]

theorem filter_lt_range (n m : Nat) : (List.range n).filter (· < m) = List.range (min n m) := by
  induction n with
  | zero => simp
  | succ n ih =>
    rw [List.range_succ, List.filter_append, ih]
    rcases Nat.lt_or_ge n m with less | ge
    · rw [Nat.min_eq_left (Nat.le_of_lt less), Nat.min_eq_left less, List.range_succ]
      simp [less]
    · rw [Nat.min_eq_right ge, Nat.min_eq_right (by omega)]
      simp [ge]

variable {names : List String} (plain : ∀ v ∈ names, Text.trim v = v ∧ v ≠ "")
  (columns last : Nat)

include plain

theorem cells_of_names :
    cells ⟨1, last⟩ ((List.range columns).map fun k => (names[k]?).getD "") =
      (List.range (min (min columns last) names.length)).map fun k =>
        (k, (names[k]?).getD "") := by
  have indexed : ((List.range columns).map fun k => (names[k]?).getD "").zipIdx =
      (List.range columns).map fun k => ((names[k]?).getD "", k) := by
    refine List.ext_getElem (by simp) fun k _ _ => ?_
    simp
  have covered : ((List.range columns).map fun k => ((names[k]?).getD "", k)).filter
      (fun p => (Window.mk 1 last).covers p.2) =
      (List.range (min columns last)).map fun k => ((names[k]?).getD "", k) := by
    rw [List.filter_map, ← filter_lt_range]
    congr 1
  have trimmed : ∀ k : Nat, Text.trim ((names[k]?).getD "") = (names[k]?).getD "" := by
    intro k
    cases here : names[k]? with
    | none => rfl
    | some v => exact (plain v (List.mem_of_getElem? here)).1
  have filled : ∀ k : Nat, (names[k]?).getD "" ≠ "" ↔ k < names.length := by
    intro k
    cases here : names[k]? with
    | none => simpa using here
    | some v =>
      have bound := (List.getElem?_eq_some_iff.mp here).1
      simpa [bound] using (plain v (List.mem_of_getElem? here)).2
  rw [cells, indexed, covered, List.map_map, List.filter_map]
  simp only [Function.comp_def, trimmed, filled, filter_lt_range]

/-- The steps of names that stand side by side. -/
theorem steps_of_names :
    steps ⟨1, last⟩ ((List.range columns).map fun k => (names[k]?).getD "") =
      ((List.range (min (min columns last) names.length)).filter (IsFresh names)).map fun k =>
        (k, (names[k]?).getD "") := by
  rw [steps, cells_of_names plain, List.range_eq_range',
    collapseAfter_range' fun k => (names[k]?).getD ""]
  congr 1
  refine List.filter_congr fun k hk => ?_
  have here : k < names.length := by have := (List.mem_range'_1.mp hk).2; omega
  rw [decide_eq_decide, IsFresh]
  cases k with
  | zero => simp
  | succ k => simp [here, show k < names.length by omega]

theorem resolveSorts_of_names (sorts : List (Option Int)) :
    resolveSorts ⟨1, last⟩ ((List.range columns).map fun k => (names[k]?).getD "") sorts =
      ((List.range (min (min columns last) names.length)).filter (IsFresh names)).map
        fun k => sorts[k]?.join := by
  rw [resolveSorts, steps_of_names plain columns last, List.map_map]
  rfl

end Rollup.LevelPath

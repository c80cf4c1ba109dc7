import Mathlib.Data.List.Basic
import Rollup.Proofs.Import.Assembly

/-!
# What the keys of skipped groups lead to

A group can be skipped for two reasons, and its keys fare differently. If its hierarchy id is
stored, its keys lead to the stored node. If an earlier group of the file has the id, its keys lead
nowhere, also not to the node of that group.

Results:

* `mem_places`, `mem_places_of_existing`: which groups are registered, and where.
* `byXref?_of_skipped`, `byPath?_of_skipped`: what a key or a path that only a skipped group has
  leads to.
-/

namespace Rollup

/-! ## Registered groups -/

namespace Assembly

/-- A registered group is no repeat, and if it is stored, it is registered for the stored node. -/
theorem mem_placesFrom {p : ImportPlan} {start : Batch} {q : RowGroup × Nat}
    (gs : List (RowGroup × Nat)) : ∀ next : Nat, q ∈ placesFrom p start next gs →
      ∃ gi, (q.1, gi) ∈ gs ∧ p.isRepeat gi = false ∧
        ∀ x, (p.existing start).lookup gi = some x → q.2 = x := by
  induction gs with
  | nil => intro next mem; cases mem
  | cons r gs ih =>
    obtain ⟨g, gi⟩ := r
    intro next mem
    have later : ∀ next', q ∈ placesFrom p start next' gs → ∃ gj, (q.1, gj) ∈ (g, gi) :: gs ∧
        p.isRepeat gj = false ∧ ∀ x, (p.existing start).lookup gj = some x → q.2 = x := by
      intro next' mem
      obtain ⟨gj, hgj, rest⟩ := ih next' mem
      exact ⟨gj, List.mem_cons_of_mem _ hgj, rest⟩
    rw [placesFrom] at mem
    by_cases rep : p.isRepeat gi = true
    · rw [if_pos rep] at mem
      exact later next mem
    · have fresh : p.isRepeat gi = false := by simpa using rep
      rw [if_neg rep] at mem
      cases ex : (p.existing start).lookup gi with
      | some i =>
        rw [ex] at mem
        rcases List.mem_cons.mp mem with rfl | mem
        · exact ⟨gi, by simp, fresh, fun x hx => Option.some.inj (ex.symm.trans hx)⟩
        · exact later next mem
      | none =>
        rw [ex] at mem
        rcases List.mem_cons.mp mem with rfl | mem
        · exact ⟨gi, by simp, fresh, fun x hx => by rw [ex] at hx; cases hx⟩
        · exact later (next + 1) mem

/-- A group that is stored is registered for the stored node. -/
theorem mem_placesFrom_of_existing {p : ImportPlan} {start : Batch} {g : RowGroup} {gi x : Nat}
    (rep : p.isRepeat gi = false) (ex : (p.existing start).lookup gi = some x)
    (gs : List (RowGroup × Nat)) : ∀ next : Nat, (g, gi) ∈ gs →
      (g, x) ∈ placesFrom p start next gs := by
  induction gs with
  | nil => intro next mem; cases mem
  | cons r gs ih =>
    obtain ⟨g', gj⟩ := r
    intro next mem
    rw [placesFrom]
    rcases List.mem_cons.mp mem with eq | mem
    · obtain ⟨rfl, rfl⟩ := Prod.mk.inj eq
      rw [if_neg (by simp [rep]), ex]
      exact List.mem_cons_self
    · split
      · exact ih next mem
      · split
        · exact List.mem_cons_of_mem _ (ih next mem)
        · exact List.mem_cons_of_mem _ (ih (next + 1) mem)

/-- Placeholders register no cross-reference keys. -/
theorem xrefs_foldl_addPlaceholder (p : ImportPlan) (hs : List Placeholder) : ∀ b : Batch,
    (hs.foldl (addPlaceholder p) b).fresh.xrefs = b.fresh.xrefs := by
  have addPath : ∀ (t : KeyTable) path i, (t.addPath path i).xrefs = t.xrefs := by
    intro t path i
    unfold KeyTable.addPath
    split <;> rfl
  induction hs with
  | nil => intro b; rfl
  | cons h hs ih =>
    intro b
    rw [List.foldl_cons, ih]
    rcases addPlaceholder_cases p b h with ⟨-, eq⟩ | ⟨i, -, -, eq⟩ | ⟨-, -, -, eq⟩ <;> rw [eq]
    · exact addPath b.fresh h.path i
    · exact addPath _ h.path b.size

/-- Placeholders register their own paths, after those of the groups. -/
theorem paths_foldl_addPlaceholder (p : ImportPlan) (hs : List Placeholder) : ∀ b : Batch,
    ∃ more, (hs.foldl (addPlaceholder p) b).fresh.paths = b.fresh.paths ++ more ∧
      ∀ q ∈ more, q.1 ∈ hs.map (·.path) := by
  have addPath : ∀ (t : KeyTable) path i, ∃ more, (t.addPath path i).paths = t.paths ++ more ∧
      ∀ q ∈ more, q.1 = path := by
    intro t path i
    unfold KeyTable.addPath
    split
    · exact ⟨[], by simp⟩
    · exact ⟨[(path, i)], by simp⟩
  induction hs with
  | nil => intro b; exact ⟨[], by simp⟩
  | cons h hs ih =>
    intro b
    have step : ∃ more, (addPlaceholder p b h).fresh.paths = b.fresh.paths ++ more ∧
        ∀ q ∈ more, q.1 = h.path := by
      rcases addPlaceholder_cases p b h with ⟨-, eq⟩ | ⟨i, -, -, eq⟩ | ⟨-, -, -, eq⟩ <;> rw [eq]
      · exact ⟨[], by simp⟩
      · exact addPath b.fresh h.path i
      · exact addPath _ h.path b.size
    obtain ⟨own, eq, paths⟩ := step
    obtain ⟨more, rest, others⟩ := ih (addPlaceholder p b h)
    refine ⟨own ++ more, by rw [List.foldl_cons, rest, eq, List.append_assoc], fun q hq => ?_⟩
    rw [List.map_cons, List.mem_cons]
    rcases List.mem_append.mp hq with hq | hq
    · exact Or.inl (paths q hq)
    · exact Or.inr (others q hq)

end Assembly

/-! ## Keys of skipped groups -/

namespace ImportPlan

/-- The group at a position has a property that no other group has. -/
structure Only (p : ImportPlan) (gi : Nat) (has : RowGroup → Prop) : Prop where
  holder : ∃ g, p.groups[gi]? = some g ∧ has g
  alone : ∀ gj g, p.groups[gj]? = some g → has g → gj = gi

theorem only_iff {p : ImportPlan} {gi : Nat} {has : RowGroup → Prop} [DecidablePred has] :
    p.Only gi has ↔ (p.groups[gi]?).any (fun g => has g) = true ∧
      ∀ q ∈ p.groups.zipIdx, has q.1 → q.2 = gi := by
  rw [Option.any_eq_true]
  constructor
  · rintro ⟨⟨g, hg, own⟩, alone⟩
    exact ⟨⟨g, hg, by simpa using own⟩,
      fun q hq => alone q.2 q.1 (List.mem_zipIdx_iff_getElem?.mp hq)⟩
  · rintro ⟨⟨g, hg, own⟩, alone⟩
    exact ⟨⟨g, hg, by simpa using own⟩,
      fun gj g' hg' => alone (g', gj) (List.mem_zipIdx_iff_getElem?.mpr hg')⟩

instance {p : ImportPlan} {gi : Nat} {has : RowGroup → Prop} [DecidablePred has] :
    Decidable (p.Only gi has) :=
  decidable_of_iff' _ only_iff

variable {p : ImportPlan} {stored : List Node} {gi : Nat}

theorem lookup_existing_of_repeat (b : Batch) (rep : p.isRepeat gi = true) :
    (p.existing b).lookup gi = none := by
  rw [lookup_existing]
  cases p.groups[gi]? with
  | none => rfl
  | some g => simp [rep]

theorem isRepeat_of_existing {b : Batch} {x : Nat} (ex : (p.existing b).lookup gi = some x) :
    p.isRepeat gi = false := by
  cases rep : p.isRepeat gi with
  | false => rfl
  | true =>
    rw [lookup_existing_of_repeat b rep] at ex
    cases ex

/-- A group that is skipped and not stored is a repeat. -/
theorem isRepeat_of_skipped {b : Batch} (skipped : p.isNew b gi = false)
    (ex : (p.existing b).lookup gi = none) : p.isRepeat gi = true := by
  simpa [isNew, ex] using skipped

/-- What a registration that only one group has leads to, if that group is skipped: to the stored
    node of the group, and nowhere if the group is a repeat. -/
theorem lookup_of_skipped {κ : Type} [BEq κ] [LawfulBEq κ] {entries : List (κ × Nat)} {k : κ}
    {has : RowGroup → Prop} (only : p.Only gi has)
    (registered : ∀ x, (k, x) ∈ entries ↔ ∃ q ∈ p.places stored, has q.1 ∧ q.2 = x)
    (skipped : p.isNew (Batch.ofStored stored) gi = false) :
    entries.lookup k = (p.existing (Batch.ofStored stored)).lookup gi := by
  obtain ⟨⟨g, hg, own⟩, alone⟩ := only
  have place : ∀ q ∈ p.places stored, has q.1 → p.isRepeat gi = false ∧
      ∀ x, (p.existing (Batch.ofStored stored)).lookup gi = some x → q.2 = x := by
    intro q hq hhas
    obtain ⟨gj, mem, rest⟩ := Assembly.mem_placesFrom _ _ hq
    obtain rfl := alone gj q.1 (List.mem_zipIdx_iff_getElem?.mp mem) hhas
    exact rest
  cases ex : (p.existing (Batch.ofStored stored)).lookup gi with
  | none =>
    have rep := isRepeat_of_skipped skipped ex
    rw [← Option.not_isSome_iff_eq_none, lookup_isSome_iff_mem, List.mem_map]
    rintro ⟨⟨k', x⟩, mem, rfl⟩
    obtain ⟨q, hq, hhas, -⟩ := (registered x).mp mem
    rw [(place q hq hhas).1] at rep
    cases rep
  | some x =>
    have here : (g, x) ∈ p.places stored := Assembly.mem_placesFrom_of_existing
      (isRepeat_of_existing ex) ex _ _ (List.mem_zipIdx_iff_getElem?.mpr hg)
    refine lookup_of_unique ((registered x).mpr ⟨_, here, own, rfl⟩) fun y mem => ?_
    obtain ⟨q, hq, hhas, rfl⟩ := (registered y).mp mem
    exact (place q hq hhas).2 x ex

/-- A key that only a skipped group has leads to the stored node of the group, else to a stored
    node that has the key itself. -/
theorem byXref?_of_skipped {k : Int} (only : p.Only gi fun g => k ∈ g.xrefs)
    (skipped : p.isNew (Batch.ofStored stored) gi = false) :
    (p.filled stored).byXref? k = ((p.existing (Batch.ofStored stored)).lookup gi).or
      ((p.filled stored).stored.xref? k) := by
  have xrefs : (p.filled stored).fresh.xrefs =
      (p.places stored).flatMap fun q => q.1.xrefs.map fun x => (x, q.2) := by
    rw [filled, Assembly.xrefs_foldl_addPlaceholder, grouped_eq, Assembly.foldl_groupKeys]
    exact List.nil_append _
  rw [Batch.byXref?, KeyTable.xref?, xrefs, lookup_of_skipped only (fun x => ?_) skipped]
  simp only [List.mem_flatMap, List.mem_map, Prod.mk.injEq]
  grind

/-- A path that only a skipped group has leads to the stored node of the group, else to a stored
    node that has the path itself. No placeholder stands for it. -/
theorem byPath?_of_skipped {path : List String} (filled : path ≠ [])
    (only : p.Only gi fun g => g.path = path) (gaps : path ∉ p.placeholders.map (·.path))
    (skipped : p.isNew (Batch.ofStored stored) gi = false) :
    (p.filled stored).byPath? path = ((p.existing (Batch.ofStored stored)).lookup gi).or
      ((p.filled stored).stored.path? path) := by
  obtain ⟨more, eq, others⟩ := Assembly.paths_foldl_addPlaceholder p p.placeholders
    (p.grouped stored)
  have paths : (p.filled stored).fresh.paths =
      ((p.places stored).filter fun q => q.1.path ≠ []).map (fun q => (q.1.path, q.2)) ++ more := by
    rw [ImportPlan.filled, eq, grouped_eq, Assembly.foldl_groupKeys]
    rfl
  rw [Batch.byPath?, KeyTable.path?, paths, lookup_of_skipped only (fun x => ?_) skipped]
  rw [List.mem_append, List.mem_map]
  constructor
  · rintro (⟨q, hq, eq⟩ | mem)
    · obtain ⟨rfl, rfl⟩ := Prod.mk.inj eq
      exact ⟨q, List.mem_of_mem_filter hq, rfl, rfl⟩
    · exact absurd (others _ mem) gaps
  · rintro ⟨q, hq, rfl, rfl⟩
    exact Or.inl ⟨q, List.mem_filter.mpr ⟨hq, by simpa using filled⟩, rfl⟩

end ImportPlan

end Rollup

import Mathlib.Tactic.SplitIfs
import Rollup.HierarchyRow.Read
import Rollup.Proofs.Dict
import Rollup.Store

/-!
# What rows carry

The texts of a row are trimmed and not empty, whichever dialect it was read in. What it leaves in
the metadata of its node does not mark a placeholder.

Results:

* `standardRow_eq`, `legacyRow_eq`: the texts of a row, if it can be read.
* `trimmed_hierarchyRow`, `filled_hierarchyRow`: the hierarchy id of a row is trimmed and not empty.
* `unmarked_hierarchyRow`: the metadata of a row.
-/

namespace Rollup

theorem Except.bind_eq_ok_iff {ε α β : Type} {x : Except ε α} {f : α → Except ε β} {b : β} :
    (x >>= f) = .ok b ↔ ∃ a, x = .ok a ∧ f a = .ok b := by
  cases x with
  | error e => exact ⟨fun h => (by cases h), fun ⟨_, h, _⟩ => (by cases h)⟩
  | ok a => exact ⟨fun h => ⟨a, rfl, h⟩, fun ⟨_, h, h'⟩ => (by cases h; exact h')⟩

theorem Literal.text?_eq_some {raw v : String} (h : Literal.text? raw = some v) :
    Text.trim v = v ∧ v ≠ "" := by
  unfold Literal.text? at h
  dsimp only at h
  split_ifs at h with blank
  cases h
  rw [not_or] at blank
  exact ⟨Text.trim_trim raw, blank.1⟩

/-- The metadata entry does not mark a placeholder, and it is kept as it is. -/
def Unmarked (q : String × Value) : Prop :=
  q.1 ≠ Node.placeholderKey ∧ q.2.kept = q.2

namespace Table

theorem text?_eq_some {t : Table} {row : Row} {column v : String}
    (h : t.text? row column = some v) : Text.trim v = v ∧ v ≠ "" := by
  obtain ⟨raw, -, hraw⟩ := Option.bind_eq_some_iff.mp h
  exact Literal.text?_eq_some hraw

/-- The texts of a standard row, which leaves nothing beyond the fields of a node. -/
theorem standardRow_eq {t : Table} {columns : List String} {row : Row} {r : HierarchyRow}
    (h : t.standardRow columns row = .ok r) :
    r.hierarchyId = t.text? row Column.hierarchyId ∧ r.number = row.number ∧ r.metadata = [] := by
  unfold standardRow at h
  iterate 8
    obtain ⟨_, -, h⟩ := Except.bind_eq_ok_iff.mp h
  cases h
  exact ⟨rfl, rfl, rfl⟩

/-- The texts of a legacy row, and what is kept of it beyond the fields of a node. -/
theorem legacyRow_eq {t : Table} {columns : List String} {row : Row} {r : HierarchyRow}
    (h : t.legacyRow columns row = .ok r) :
    r.hierarchyId = t.text? row Column.hierarchyId ∧ r.name = t.text? row Column.hierarchyName ∧
      ∃ logic xref, r.metadata = legacyMetadata logic r.levels xref := by
  unfold legacyRow at h
  iterate 8
    obtain ⟨_, -, h⟩ := Except.bind_eq_ok_iff.mp h
  cases h
  exact ⟨rfl, rfl, _, _, rfl⟩

theorem hierarchyId_hierarchyRow {t : Table} {d : Dialect} {columns : List String} {row : Row}
    {r : HierarchyRow} (h : t.hierarchyRow d columns row = .ok r) :
    r.hierarchyId = t.text? row Column.hierarchyId := by
  cases d with
  | standard => exact (standardRow_eq h).1
  | legacy => exact (legacyRow_eq h).1

/-- The hierarchy id of a row is trimmed. -/
theorem trimmed_hierarchyRow {t : Table} {d : Dialect} {columns : List String} {row : Row}
    {r : HierarchyRow} (h : t.hierarchyRow d columns row = .ok r) :
    ∀ k, r.hierarchyId = some k → Text.trim k = k := by
  intro k hk
  rw [hierarchyId_hierarchyRow h] at hk
  exact (text?_eq_some hk).1

/-- The hierarchy id of a row is not empty. -/
theorem filled_hierarchyRow {t : Table} {d : Dialect} {columns : List String} {row : Row}
    {r : HierarchyRow} (h : t.hierarchyRow d columns row = .ok r) :
    ∀ k, r.hierarchyId = some k → k ≠ "" := by
  intro k hk
  rw [hierarchyId_hierarchyRow h] at hk
  exact (text?_eq_some hk).2

/-! ## Metadata -/

theorem unmarked_legacyMetadata (logic : Option String) (levels : List String)
    (xref : Option Int) : ∀ q ∈ legacyMetadata logic levels xref, Unmarked q := by
  have keys : arithmeticLogicKey ≠ Node.placeholderKey ∧ projectLabelKey ≠ Node.placeholderKey ∧
      legacyXrefKey ≠ Node.placeholderKey := by decide
  intro q hq
  have hq := Dict.mem_of_mem_ofList hq
  rw [List.mem_append, List.mem_append] at hq
  rcases hq with (hq | hq) | hq
  · obtain ⟨v, -, rfl⟩ := Option.map_eq_some_iff.mp (Option.mem_toList.mp hq)
    exact ⟨keys.1, rfl⟩
  · obtain ⟨v, -, rfl⟩ := Option.map_eq_some_iff.mp (Option.mem_toList.mp hq)
    exact ⟨keys.2.1, rfl⟩
  · obtain ⟨v, -, rfl⟩ := Option.map_eq_some_iff.mp (Option.mem_toList.mp hq)
    exact ⟨keys.2.2, rfl⟩

/-- What rows leave in the metadata of their nodes. -/
theorem unmarked_hierarchyRow {t : Table} {d : Dialect} {columns : List String} {row : Row}
    {r : HierarchyRow} (h : t.hierarchyRow d columns row = .ok r) : ∀ q ∈ r.metadata, Unmarked q := by
  cases d with
  | standard =>
    rw [(standardRow_eq h).2.2]
    simp
  | legacy =>
    obtain ⟨-, -, logic, xref, eq⟩ := legacyRow_eq h
    rw [eq]
    exact unmarked_legacyMetadata logic r.levels xref

end Table

/-! ## Rows of files -/

/-- The row is that of a record of some table, in the given dialect. -/
def HierarchyRow.ReadIn (d : Dialect) (r : HierarchyRow) : Prop :=
  ∃ (t : Table) (columns : List String) (row : Row), t.hierarchyRow d columns row = .ok r

theorem HierarchyRow.ReadIn.filled {d : Dialect} {r : HierarchyRow} (h : r.ReadIn d) :
    ∀ k, r.hierarchyId = some k → k ≠ "" := by
  obtain ⟨t, columns, row, read⟩ := h
  exact Table.filled_hierarchyRow read

end Rollup

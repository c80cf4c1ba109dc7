import Mathlib.Data.List.Basic
import Mathlib.Data.List.Forall2
import Rollup.Proofs.Export.Read
import Rollup.Proofs.Import.Outcome
import Rollup.Proofs.RowGroup.Build
import Rollup.Proofs.RowGroup.Together

/-!
# The row groups of an export

The text of an export is read as a table whose rows fall into one group for each exported node, in
the order of the export. The group is led by the main row of the node, and nothing is wrong with
any row. What an import of the text does can therefore be said in terms of `Sheet.groups`.

Results:

* `ofText_hierarchy`: the table of an export.
* `readRows_written`, `readErrors_written`: its rows.
* `exists_group_readRows`: the group of a written node, whatever the texts of the nodes are.
* `group_readRows`: all groups, if the texts are in the form in which they are kept.
-/

namespace Rollup.Export

open Table

/-! ## Rows -/

theorem map_zipIdx_of_forall₂ {α β γ : Type} {R : α → β → Prop} {f : β × Nat → γ}
    {g : α × Nat → γ} {xs : List α} {ys : List β} (related : List.Forall₂ R xs ys)
    (same : ∀ x y k, R x y → f (y, k) = g (x, k)) (n : Nat) :
    (ys.zipIdx n).map f = (xs.zipIdx n).map g := by
  induction related generalizing n with
  | nil => rfl
  | cons head tail ih =>
    rw [List.zipIdx_cons, List.zipIdx_cons, List.map_cons, List.map_cons, same _ _ n head, ih]

theorem forall₂_filterMap_zipIdx {α β γ δ : Type} {R : α → β → Prop} {S : γ → δ → Prop}
    {f : β × Nat → Option δ} {g : α × Nat → γ} {xs : List α} {ys : List β}
    (related : List.Forall₂ R xs ys)
    (each : ∀ x y k, R x y → ∃ d, f (y, k) = some d ∧ S (g (x, k)) d) (n : Nat) :
    List.Forall₂ S ((xs.zipIdx n).map g) ((ys.zipIdx n).filterMap f) := by
  induction related generalizing n with
  | nil => exact List.Forall₂.nil
  | cons head tail ih =>
    obtain ⟨d, found, holds⟩ := each _ _ n head
    rw [List.zipIdx_cons, List.zipIdx_cons, List.map_cons, List.filterMap_cons_some found]
    exact List.Forall₂.cons holds (ih (n + 1))

section Legible

variable {nodes : List Node} (h : Legible nodes) {options : ExportOptions}
  (fits : KeysFit nodes options)

include h fits

/-- The records of an export are as wide as its header and not blank. -/
theorem fits_records {record : List String}
    (mem : record ∈ (Sheet.ofNodes nodes options).records options) :
    Fits (Sheet.ofNodes nodes options).layout record := by
  obtain ⟨p, written, -, isRow⟩ := exists_filling h fits mem
  refine ⟨isRow.width, ?_⟩
  have node := h.of_written written
  have cell : _ = p.node.hierarchyId :=
    isRow.cell (c := Column.hierarchyId) (by simp [Sheet.placeCells, Sheet.idCells])
  have column : Column.hierarchyId ∈ (Sheet.ofNodes nodes options).layout.header :=
    fixed_mem_header options (by simp [Column.fixed, Column.place])
  obtain ⟨j, index⟩ := Layout.exists_index? column
  obtain ⟨trimmed, filled⟩ := Literal.text?_eq_some node.hierarchyId
  rw [Layout.get, index, Option.bind_some] at cell
  cases found : record[j]? with
  | none =>
    rw [found] at cell
    exact absurd cell.symm filled
  | some v =>
    rw [found, Option.getD_some] at cell
    refine ⟨v, List.mem_of_getElem? found, ?_⟩
    rw [cell, ← Bool.not_eq_true]
    intro blank
    have empty : Text.trim p.node.hierarchyId = "" := Text.trim_of_isAllBlank blank
    exact filled (trimmed.symm.trans empty)

/-- The table of an export. -/
theorem ofText_hierarchy : ofText (hierarchy nodes options) =
    .ok (written (Sheet.ofNodes nodes options).layout
      ((Sheet.ofNodes nodes options).records options)) := by
  refine ofText_write (c := Column.hierarchyId) rfl (by decide)
    (fun c hc => canonical_header h options hc) (by decide) ?_
  exact fun record mem => fits_records h fits mem

end Legible

section Rows

variable {nodes : List Node} (h : Exportable nodes) {options : ExportOptions}
  (fits : KeysFit nodes options)

include h fits

/-- All records of an export are read. -/
theorem map_hierarchyRow_written :
    (written (Sheet.ofNodes nodes options).layout
        ((Sheet.ofNodes nodes options).records options)).rows.map
      ((written (Sheet.ofNodes nodes options).layout
        ((Sheet.ofNodes nodes options).records options)).hierarchyRow .standard
          ((written (Sheet.ofNodes nodes options).layout
            ((Sheet.ofNodes nodes options).records options)).customFlagColumns .standard)) =
      (((Sheet.ofNodes nodes options).fillings options).zipIdx 1).map fun q =>
        .ok ((Sheet.ofNodes nodes options).row q.2 q.1) := by
  rw [customFlagColumns_eq h.legible fits]
  unfold written
  dsimp only
  rw [List.map_map]
  refine map_zipIdx_of_forall₂ (isFilled_records h.legible fits) (fun p record k filled => ?_) 1
  exact standardRow_isFilled fits filled _ h

theorem readRows_written :
    Import.readRows (written (Sheet.ofNodes nodes options).layout
        ((Sheet.ofNodes nodes options).records options)) .standard =
      (((Sheet.ofNodes nodes options).fillings options).zipIdx 1).map fun q =>
        (Sheet.ofNodes nodes options).row q.2 q.1 := by
  rw [Import.readRows, map_hierarchyRow_written h fits, List.filterMap_map]
  exact congrFun List.filterMap_eq_map' _

theorem readErrors_written :
    Import.readErrors (written (Sheet.ofNodes nodes options).layout
      ((Sheet.ofNodes nodes options).records options)) .standard = [] := by
  rw [Import.readErrors, map_hierarchyRow_written h fits, List.filterMap_map]
  simp [written]

end Rows

/-! ## Groups -/

namespace Sheet

variable (s : Sheet) (w : Window)

/-- The group of a node whose main row has the given number; its further rows follow, with the given
    keys. The rows stand as in the file. -/
def group (number : Nat) (key : Nat → Int) (q : Nat × Node) : RowGroup :=
  let main := s.row number (s.mainFilling q)
  { hierarchyId := q.2.hierarchyId
    name := q.2.name
    path := LevelPath.resolve w main.levels
    pathSorts := LevelPath.resolveSorts w main.levels main.levelSorts
    leader := main
    others := ((extraFillings key q).zipIdx (number + 1)).map fun r => s.row r.2 r.1 }

/-- The groups of a list of nodes. -/
def groupsFrom : (number : Nat) → (key : Nat → Int) → List (Nat × Node) → List RowGroup
  | _, _, [] => []
  | number, key, q :: rest =>
    s.group w number key q ::
      groupsFrom (number + 1 + extraRows q.2) (fun k => key (extraRows q.2 + k)) rest

/-- The groups of the sheet, whose rows stand as in the file. -/
def fileGroups (options : ExportOptions) : List RowGroup :=
  s.groupsFrom w 1 (s.furtherKey options) s.written

/-- The groups of the sheet as they are read: their rows are in the order of leadership. -/
def groups (options : ExportOptions) : List RowGroup :=
  (s.fileGroups w options).map RowGroup.led

/-- The keys of further rows after some of them. -/
def keysFrom (options : ExportOptions) (before : Nat) : Nat → Int :=
  fun k => s.furtherKey options (before + k)

theorem rows_group (number : Nat) (key : Nat → Int) (q : Nat × Node) :
    (s.group w number key q).rows =
      ((s.mainFilling q :: extraFillings key q).zipIdx number).map fun r => s.row r.2 r.1 := rfl

/-- What a row of a group says of its node. -/
theorem mem_rows_group {number : Nat} {key : Nat → Int} {q : Nat × Node} {row : HierarchyRow}
    (mem : row ∈ (s.group w number key q).rows) :
    ∃ k key cells, row = s.row k ⟨q.1, q.2, key, cells⟩ := by
  rw [rows_group] at mem
  obtain ⟨r, hr, rfl⟩ := List.mem_map.mp mem
  rcases List.mem_cons.mp (List.fst_mem_of_mem_zipIdx hr) with main | extra
  · exact ⟨r.2, _, _, by rw [main]; rfl⟩
  · obtain ⟨position, node, -⟩ := mem_extraFillings extra
    exact ⟨r.2, r.1.key, r.1.cells, by rw [← position, ← node]⟩

/-- The rows of the groups are the rows of the fillings. -/
theorem flatMap_rows_groupsFrom (todo : List (Nat × Node)) : ∀ (number : Nat) (key : Nat → Int),
    (s.groupsFrom w number key todo).flatMap RowGroup.rows =
      ((s.fillingsFrom key todo).zipIdx number).map fun r => s.row r.2 r.1 := by
  induction todo with
  | nil => intro _ _; rfl
  | cons q todo ih =>
    intro number key
    rw [groupsFrom, List.flatMap_cons, fillingsFrom, List.zipIdx_append, List.map_append, ih,
      rows_group, List.length_cons, length_extraFillings]
    congr 3
    omega

/-- What groups take from their nodes alone. -/
theorem map_groupsFrom {α : Type} {f : RowGroup → α} {g : Nat × Node → α}
    (todo : List (Nat × Node)) (same : ∀ q ∈ todo, ∀ number key, f (s.group w number key q) = g q) :
    ∀ (number : Nat) (key : Nat → Int), (s.groupsFrom w number key todo).map f = todo.map g := by
  induction todo with
  | nil => intro _ _; rfl
  | cons q todo ih =>
    intro number key
    rw [groupsFrom, List.map_cons, List.map_cons, same q (by simp),
      ih fun r hr => same r (by simp [hr])]

@[simp] theorem length_groupsFrom (todo : List (Nat × Node)) (number : Nat) (key : Nat → Int) :
    (s.groupsFrom w number key todo).length = todo.length := by
  have same := congrArg List.length (s.map_groupsFrom w (f := fun _ => ()) (g := fun _ => ()) todo
    (fun _ _ _ _ => rfl) number key)
  simpa using same

theorem getElem?_groupsFrom (todo : List (Nat × Node)) : ∀ (number : Nat) (key : Nat → Int) {k : Nat}
    {q : Nat × Node}, todo[k]? = some q → ∃ number' before, number ≤ number' ∧
      before + extraRows q.2 ≤ (todo.map fun q => extraRows q.2).sum ∧
      (s.groupsFrom w number key todo)[k]? =
        some (s.group w number' (fun j => key (before + j)) q) := by
  induction todo with
  | nil => intro number key k q found; cases found
  | cons r todo ih =>
    intro number key k q found
    rw [List.map_cons, List.sum_cons]
    cases k with
    | zero =>
      cases found
      refine ⟨number, 0, Nat.le_refl _, by omega, ?_⟩
      simp only [Nat.zero_add]
      rfl
    | succ k =>
      obtain ⟨number', before, hn, most, eq⟩ :=
        ih (number + 1 + extraRows r.2) (fun j => key (extraRows r.2 + j)) found
      refine ⟨number', extraRows r.2 + before, by omega, by omega, ?_⟩
      simp only [Nat.add_assoc]
      exact eq

theorem mem_groupsFrom {todo : List (Nat × Node)} {number : Nat} {key : Nat → Int} {g : RowGroup}
    (mem : g ∈ s.groupsFrom w number key todo) :
    ∃ q ∈ todo, ∃ number' key', number ≤ number' ∧ g = s.group w number' key' q := by
  obtain ⟨k, hk, rfl⟩ := List.mem_iff_getElem.mp mem
  have bound : k < todo.length := by rwa [length_groupsFrom] at hk
  obtain ⟨number', before, hn, -, eq⟩ :=
    s.getElem?_groupsFrom w todo number key (List.getElem?_eq_getElem bound)
  rw [List.getElem?_eq_getElem hk, Option.some.injEq] at eq
  exact ⟨todo[k], List.getElem_mem bound, number', _, hn, eq⟩

/-- The rows of a group have its hierarchy id. -/
theorem hierarchyId_of_mem_fileGroups (options : ExportOptions) :
    ∀ g ∈ s.fileGroups w options, ∀ row ∈ g.rows, row.hierarchyId = some g.hierarchyId := by
  intro g hg row hrow
  obtain ⟨q, -, number, key, -, rfl⟩ := s.mem_groupsFrom w hg
  obtain ⟨k, key, cells, rfl⟩ := s.mem_rows_group w hrow
  rfl

/-- The main row has the least number of its group. -/
theorem firstNumber_group (number : Nat) (key : Nat → Int) (q : Nat × Node) :
    (s.group w number key q).firstNumber = number := by
  refine (s.group w number key q).isLeast_firstNumber.unique
    ⟨⟨s.row number (s.mainFilling q), List.mem_cons_self, rfl⟩, ?_⟩
  rintro n ⟨row, mem, rfl⟩
  rw [rows_group] at mem
  obtain ⟨r, hr, rfl⟩ := List.mem_map.mp mem
  exact List.le_snd_of_mem_zipIdx hr

theorem pairwise_firstNumber (todo : List (Nat × Node)) : ∀ (number : Nat) (key : Nat → Int),
    (s.groupsFrom w number key todo).Pairwise fun a b => a.firstNumber ≤ b.firstNumber := by
  induction todo with
  | nil => intro _ _; exact List.Pairwise.nil
  | cons q todo ih =>
    intro number key
    refine List.Pairwise.cons (fun g hg => ?_) (ih _ _)
    obtain ⟨r, -, number', key', hn, rfl⟩ := s.mem_groupsFrom w hg
    rw [firstNumber_group, firstNumber_group]
    omega

/-- The main row leads its group, and the others follow as they stand, as long as keys rise. -/
theorem pairwise_leads {number : Nat} {key : Nat → Int} {q : Nat × Node}
    (below : ∀ k < extraRows q.2, (s.mainFilling q).key < key k)
    (rising : ∀ j k, j < k → k < extraRows q.2 → key j < key k) :
    (s.group w number key q).rows.Pairwise fun a b => a.leads b = true := by
  have leads : ∀ {j k : Nat} {p r : Filling}, p.key < r.key →
      (s.row j p).leads (s.row k r) = true := by
    intro j k p r less
    simp [HierarchyRow.leads, row, less]
  rw [rows_group, List.zipIdx_cons, List.map_cons]
  refine List.Pairwise.cons (fun row hrow => ?_) ?_
  · obtain ⟨r, hr, rfl⟩ := List.mem_map.mp hrow
    obtain ⟨-, -, k, hk, same⟩ := mem_extraFillings (List.fst_mem_of_mem_zipIdx hr)
    exact leads (same ▸ below k hk)
  · rw [extraFillings, List.pairwise_map, List.pairwise_iff_getElem]
    intro j k hj hk less
    rw [List.length_zipIdx, List.length_map, List.length_zipIdx, length_extraFormulaCells] at hk
    refine leads ?_
    simp only [List.getElem_zipIdx, List.getElem_map]
    exact rising _ _ (by omega) (by omega)

end Sheet

/-! ## Grouping -/

section Grouping

variable {nodes : List Node} {options : ExportOptions}

/-- The key of the main row of a node. -/
theorem mainFilling_key {q : Nat × Node} (mem : q ∈ (Sheet.ofNodes nodes options).written) :
    (Sheet.ofNodes nodes options).keys.lookup q.1 =
      some ((Sheet.ofNodes nodes options).mainFilling q).key := by
  obtain ⟨key, found⟩ := exists_key options mem
  rw [Sheet.mainFilling, found]
  rfl

/-- The rows of a group among those of several groups with distinct ids. -/
theorem filter_flatMap_rows {groups : List RowGroup}
    (distinctIds : (groups.map (·.hierarchyId)).Nodup)
    (own : ∀ g ∈ groups, ∀ row ∈ g.rows, row.hierarchyId = some g.hierarchyId) {g : RowGroup}
    (mem : g ∈ groups) :
    (groups.flatMap RowGroup.rows).filter (·.hierarchyId = some g.hierarchyId) = g.rows := by
  rw [List.filter_flatMap, ← flatMap_of_key distinctIds mem RowGroup.rows]
  refine List.flatMap_congr fun g' hg' => ?_
  split_ifs with same
  · rw [List.filter_eq_self]
    intro row hrow
    simp [own g' hg' row hrow, same]
  · rw [List.filter_eq_nil_iff]
    intro row hrow
    simp [own g' hg' row hrow, same]

section Legible

variable (h : Legible nodes)

include h

theorem nodup_hierarchyId_written :
    ((Sheet.ofNodes nodes options).written.map (·.2.hierarchyId)).Nodup := by
  have positions := nodup_written nodes options
  rw [List.Nodup, List.pairwise_map] at positions ⊢
  refine positions.imp_of_mem fun {q r} hq hr apart same => apart ?_
  exact index_of_nodup_map h.hierarchyIds (getElem?_of_written hq) (getElem?_of_written hr) same

theorem nodup_hierarchyId_fileGroups (w : Window) :
    (((Sheet.ofNodes nodes options).fileGroups w options).map (·.hierarchyId)).Nodup := by
  rw [Sheet.fileGroups, Sheet.map_groupsFrom (g := fun q => q.2.hierarchyId) _ _ _ fun _ _ _ _ => rfl]
  exact nodup_hierarchyId_written h

theorem nodup_hierarchyId_groups (w : Window) :
    (((Sheet.ofNodes nodes options).groups w options).map (·.hierarchyId)).Nodup := by
  rw [Sheet.groups, List.map_map]
  simp only [Function.comp_def, RowGroup.hierarchyId_led]
  exact nodup_hierarchyId_fileGroups h w

/-- The rows of an export are those of the groups, but for their texts. -/
theorem alike_readRows (fits : KeysFit nodes options) (w : Window) :
    List.Forall₂ HierarchyRow.Alike
      (((Sheet.ofNodes nodes options).fileGroups w options).flatMap RowGroup.rows)
      (Import.readRows (written (Sheet.ofNodes nodes options).layout
        ((Sheet.ofNodes nodes options).records options)) .standard) := by
  rw [Sheet.fileGroups, Sheet.flatMap_rows_groupsFrom, Import.readRows, customFlagColumns_eq h fits]
  unfold written
  dsimp only
  rw [List.map_map, List.filterMap_map]
  refine forall₂_filterMap_zipIdx (isFilled_records h fits) (fun p record k filled => ?_) 1
  have row : IsFilled nodes options p (Row.mk k record).cells := filled
  have read := standardRow_of_legible fits row ((Sheet.ofNodes nodes options).records options) h
  exact ⟨_, congrArg Except.toOption read, rfl, rfl, rfl, rfl⟩

end Legible

section Rising

variable (fits : Literal.inRange (nextKey nodes options) = true)

include fits

/-- As long as the counter has 64 bits, the rows of a group are written in the order of leadership. -/
theorem pairwise_leads_group (w : Window) {q : Nat × Node}
    (mem : q ∈ (Sheet.ofNodes nodes options).written) (number : Nat) {before : Nat}
    (most : before + extraRows q.2 ≤ (Sheet.ofNodes nodes options).furtherRows) :
    ((Sheet.ofNodes nodes options).group w number
      ((Sheet.ofNodes nodes options).keysFrom options before) q).rows.Pairwise
        fun a b => a.leads b = true := by
  have key : ∀ k < extraRows q.2, (Sheet.ofNodes nodes options).keysFrom options before k =
      ExportKeys.beyond options.syntheticXrefStart (Sheet.ofNodes nodes options).keys +
        (before + k : Nat) := fun k hk => furtherKey_of_fits options fits (by omega)
  have main := (ExportKeys.lt_beyond (Sheet.ofNodes nodes options).keys
    options.syntheticXrefStart).2 _ (mem_of_lookup (mainFilling_key mem))
  refine Sheet.pairwise_leads _ w (fun k hk => ?_) fun j k less hk => ?_
  · rw [key k hk]
    dsimp only at main
    omega
  · rw [key j (by omega), key k hk]
    omega

theorem led_group (w : Window) {q : Nat × Node}
    (mem : q ∈ (Sheet.ofNodes nodes options).written) (number : Nat) {before : Nat}
    (most : before + extraRows q.2 ≤ (Sheet.ofNodes nodes options).furtherRows) :
    ((Sheet.ofNodes nodes options).group w number
        ((Sheet.ofNodes nodes options).keysFrom options before) q).led =
      (Sheet.ofNodes nodes options).group w number
        ((Sheet.ofNodes nodes options).keysFrom options before) q :=
  RowGroup.led_of_pairwise (pairwise_leads_group fits w mem number most)

/-- The rows of a written node are the only group with its hierarchy id. They are those of the
    sheet, but for their texts. -/
theorem exists_group_readRows (h : Legible nodes) (w : Window) {q : Nat × Node}
    (mem : q ∈ (Sheet.ofNodes nodes options).written) :
    ∃ (number before : Nat) (g : RowGroup),
      List.Forall₂ HierarchyRow.Alike ((Sheet.ofNodes nodes options).group w number
        ((Sheet.ofNodes nodes options).keysFrom options before) q).rows
        g.rows ∧ g.hierarchyId = q.2.hierarchyId ∧
      ∀ g', g' ∈ (RowGroup.Standard.group w (Import.readRows
          (written (Sheet.ofNodes nodes options).layout
            ((Sheet.ofNodes nodes options).records options)) .standard)).1 ∧
        g'.hierarchyId = q.2.hierarchyId ↔ g' = g := by
  have keys := keysFit_of_nextKey options h fits
  set s := Sheet.ofNodes nodes options with hs
  set rows := Import.readRows (written s.layout (s.records options)) .standard
  have alike : List.Forall₂ HierarchyRow.Alike
      ((s.fileGroups w options).flatMap RowGroup.rows) rows := alike_readRows h keys w
  have own := s.hierarchyId_of_mem_fileGroups w options
  have ids : ∀ row ∈ rows, row.hierarchyId.isSome = true := by
    intro row hrow
    have known := List.mem_map_of_mem (f := (·.hierarchyId)) hrow
    rw [map_hierarchyId_of_alike alike] at known
    obtain ⟨row', hrow', same⟩ := List.mem_map.mp known
    obtain ⟨g, hg, held⟩ := List.mem_flatMap.mp hrow'
    rw [← same, own g hg row' held, Option.isSome_some]
  obtain ⟨k, here⟩ := List.getElem?_of_mem mem
  obtain ⟨number, before, -, most, found⟩ := s.getElem?_groupsFrom w s.written 1
    (s.furtherKey options) here
  have hg : s.group w number (s.keysFrom options before) q ∈ s.fileGroups w options :=
    List.mem_of_getElem? found
  have block := filter_hierarchyId_of_alike alike q.2.hierarchyId
  rw [show q.2.hierarchyId = (s.group w number (s.keysFrom options before) q).hierarchyId from rfl,
    filter_flatMap_rows (nodup_hierarchyId_fileGroups h w) own hg] at block
  have led := pairwise_leads_of_alike block (pairwise_leads_group fits w mem number most)
  obtain ⟨leader, others, -, -, split⟩ := List.forall₂_cons_left_iff.mp block
  rw [split] at block led
  obtain ⟨g, whole, id, only⟩ := RowGroup.Standard.exists_group_of_ids ids
    (Literal.text?_eq_some (h.of_written mem).hierarchyId).2 split led
  exact ⟨number, before, g, whole ▸ block, id, only⟩

end Rising

variable (h : Exportable nodes) (fits : KeysFit nodes options)

include h fits

/-- The groups of the rows of an export, and that no row is left over. -/
theorem group_readRows (w : Window) :
    RowGroup.Standard.group w (Import.readRows (written (Sheet.ofNodes nodes options).layout
      ((Sheet.ofNodes nodes options).records options)) .standard) =
      ((Sheet.ofNodes nodes options).groups w options, []) := by
  set s := Sheet.ofNodes nodes options with hs
  rw [readRows_written h fits, Sheet.fillings, ← s.flatMap_rows_groupsFrom w]
  refine RowGroup.Standard.group_of_blocks (nodup_hierarchyId_fileGroups h.legible w)
    (s.hierarchyId_of_mem_fileGroups w options) ?_ (s.pairwise_firstNumber w _ _ _)
  intro g hg
  obtain ⟨q, hq, number, key, -, rfl⟩ := s.mem_groupsFrom w hg
  have node := h.node q.2 (List.mem_of_getElem? ((mem_written h options).mp hq))
  refine RowGroup.Standard.ofBucket_of_agree (Literal.text?_eq_some node.hierarchyId).2 ?_ ?_ ?_ <;>
  · intro row hrow
    obtain ⟨k, key, cells, rfl⟩ := s.mem_rows_group w hrow
    rfl

end Grouping

end Rollup.Export

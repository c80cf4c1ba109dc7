import Mathlib.Data.List.Basic
import Mathlib.Data.List.Nodup
import Mathlib.Data.List.TakeWhile
import Rollup.Column.Layouts
import Rollup.Proofs.Text.Slug

/-!
# The columns of the standard layout

The columns of the standard layout are distinct, and their names are canonical: capitals and digits
in words between single underscores.

Results:

* `canonical_of_words`: such a name is its own canonical name.
* `nodup_standard`, `canonical_standard`: the columns of the standard layout.
-/

namespace Rollup

/-! ## Words -/

namespace Text

section Runs

variable {keep : Char → Bool}

theorem runsFrom_append {word : List Char} (all : ∀ c ∈ word, keep c = true) (rest : List Char) :
    ∀ run : List Char, runsFrom keep run (word ++ rest) = runsFrom keep (word.reverse ++ run) rest := by
  induction word with
  | nil => intro run; rfl
  | cons c word ih =>
    intro run
    have here : keep c = true := all c (by simp)
    have step : runsFrom keep run (c :: (word ++ rest)) = runsFrom keep (c :: run) (word ++ rest) := by
      cases run with
      | nil => rw [runsFrom, if_pos here]
      | cons d run => rw [runsFrom, if_pos here]
    rw [List.cons_append, step, ih (fun d hd => all d (by simp [hd])), List.reverse_cons,
      List.append_assoc, List.singleton_append]

/-- The runs of words with a separator between them are the words. -/
theorem runs_intercalate {separator : Char} (apart : keep separator = false) {words : List (List Char)}
    (kept : ∀ word ∈ words, word ≠ [] ∧ ∀ c ∈ word, keep c = true) :
    runs keep ([separator].intercalate words) = words := by
  unfold runs
  induction words with
  | nil => rfl
  | cons word words ih =>
    obtain ⟨ne, all⟩ := kept word (by simp)
    obtain ⟨c, run, reversed⟩ := List.exists_cons_of_ne_nil (mt List.reverse_eq_nil_iff.mp ne)
    have back : (c :: run).reverse = word := by rw [← reversed, List.reverse_reverse]
    cases words with
    | nil =>
      have single : [separator].intercalate [word] = word ++ [] := by simp
      rw [single, runsFrom_append all, List.append_nil, reversed, runsFrom, back]
    | cons next words =>
      rw [List.intercalate_cons_cons, List.append_assoc, runsFrom_append all, List.append_nil,
        reversed, List.singleton_append, runsFrom, if_neg (by simp [apart]), back,
        ih fun w hw => kept w (by simp [hw])]

end Runs

end Text

namespace Column

/-- A capital or a digit. -/
def isWordChar (c : Char) : Bool :=
  c.isUpper || c.isDigit

theorem toNat_of_isWordChar {c : Char} (h : isWordChar c = true) :
    48 ≤ c.toNat ∧ c.toNat ≤ 90 := by
  rcases Bool.or_eq_true_iff.mp h with capital | digit
  · have range : 65 ≤ c.toNat ∧ c.toNat ≤ 90 := of_decide_eq_true capital
    omega
  · have range : 48 ≤ c.toNat ∧ c.toNat ≤ 57 := Char.isDigit_iff_toNat.mp digit
    omega

theorem isBlank_of_isWordChar {c : Char} (h : isWordChar c = true) : Text.isBlank c = false := by
  have all : ∀ n < 91, 48 ≤ n → Text.blankRanges.holds n = false := by decide
  have range := toNat_of_isWordChar h
  exact all c.toNat (by omega) range.1

theorem isSeparator_of_isWordChar {c : Char} (h : isWordChar c = true) : isSeparator c = false := by
  have underscore : c ≠ '_' := by
    rintro rfl
    exact absurd h (by decide)
  have hyphen : c ≠ '-' := by
    rintro rfl
    exact absurd h (by decide)
  simp [isSeparator, underscore, hyphen, isBlank_of_isWordChar h]

theorem upperChar_of_isWordChar {c : Char} (h : isWordChar c = true) : Text.upperChar c = [c] := by
  have range := toNat_of_isWordChar h
  rw [Text.upperChar, if_pos (by omega)]
  have notLower : c.toUpper = c := by
    unfold Char.toUpper
    rw [dif_neg]
    intro lower
    have := lower.1
    rw [UInt32.le_iff_toNat_le] at this
    change 97 ≤ c.toNat at this
    omega
  rw [notLower]

/-- A name that is trimmed and canonical. -/
def IsCanonical (c : String) : Prop :=
  Text.trim c = c ∧ normalize c = c

/-- Words of capitals and digits between single underscores. -/
def isWords (c : String) : Bool :=
  (c.toList.splitOn '_').all fun word => !word.isEmpty && word.all isWordChar

/-- A name in words of capitals and digits is canonical. -/
theorem canonical_of_words {c : String} (h : isWords c = true) : IsCanonical c := by
  set words := c.toList.splitOn '_' with hwords
  have joined : ['_'].intercalate words = c.toList := List.intercalate_splitOn '_'
  have word : ∀ w ∈ words, w ≠ [] ∧ ∀ ch ∈ w, isWordChar ch = true := by
    intro w hw
    have := List.all_eq_true.mp h w hw
    rw [Bool.and_eq_true, Bool.not_eq_true', List.isEmpty_eq_false_iff, List.all_eq_true] at this
    exact this
  have char : ∀ ch ∈ c.toList, ch = '_' ∨ isWordChar ch = true := by
    intro ch hch
    rw [← joined] at hch
    rcases Text.mem_intercalate hch with hch | ⟨w, hw, hch⟩
    · exact Or.inl (List.mem_singleton.mp hch)
    · exact Or.inr ((word w hw).2 ch hch)
  have trimmed : Text.trim c = c := by
    refine Text.trim_of_solid fun ch hch => ?_
    rcases char ch hch with rfl | isWord
    · decide
    · exact isBlank_of_isWordChar isWord
  have unmarked : c.toList.dropWhile (· = byteOrderMark) = c.toList := by
    rw [List.dropWhile_eq_self_iff]
    intro bound
    rw [decide_eq_true_eq]
    rcases char _ (List.getElem_mem bound) with eq | isWord
    · rw [eq]
      decide
    · intro eq
      rw [eq] at isWord
      exact absurd isWord (by decide)
  have runs : Text.runs (fun ch => !isSeparator ch) c.toList = words := by
    rw [← joined]
    refine Text.runs_intercalate (by decide) fun w hw => ⟨(word w hw).1, fun ch hch => ?_⟩
    rw [isSeparator_of_isWordChar ((word w hw).2 ch hch), Bool.not_false]
  have upper : words.map (fun w => String.ofList (w.flatMap Text.upperChar)) =
      words.map String.ofList := by
    refine List.map_congr_left fun w hw => congrArg String.ofList ?_
    calc w.flatMap Text.upperChar
        = w.flatMap (fun ch => [ch]) :=
          List.flatMap_congr fun ch hch => upperChar_of_isWordChar ((word w hw).2 ch hch)
      _ = w := List.flatMap_singleton' w
  refine ⟨trimmed, ?_⟩
  unfold normalize
  dsimp only
  rw [trimmed, unmarked, runs, upper, Text.join, List.map_map]
  have back : words.map (String.toList ∘ String.ofList) = words := by simp [Function.comp_def]
  rw [back, show "_".toList = ['_'] from rfl, joined, String.ofList_toList]

/-! ## The standard layout -/

/-- The columns that say what a node is and where it stands. -/
def place : List String :=
  [hierarchyId, hierarchyName, description, isRoot, sortOrder, parentId, parentXrefKey,
   includeFlag, excludeFlag, transformFlag, calculationFlag, activeFlag, isLeafNode]

/-- The columns of a formula. -/
def formula : List String :=
  [formulaGroupName, formulaOperation, formulaOperand, formulaPrecedence, formulaConstant,
   formulaExpression, aggregation]

/-- The columns of the standard layout that are not numbered. -/
def fixed : List String :=
  xrefKey :: (place ++ formula)

/-- The columns of the levels. -/
def levelColumns (levels : Nat) : List String :=
  (upTo levels).map level ++ (upTo levels).map levelOrder

/-- The columns of the filter groups. -/
def filterColumns : List String :=
  (upTo filterGroupCount).map filterGroup

/-- The columns of other layouts that are read in standard files too. -/
def foreign : List String :=
  [sourceTable, sourceColumn] ++ (upTo maxLevels).map levelSort

theorem perm_standard (levels : Nat) :
    (standard levels).Perm (fixed ++ (levelColumns levels ++ filterColumns)) := by
  have leading : [hierarchyId, hierarchyName, description, parentId, isRoot, sortOrder, xrefKey,
      parentXrefKey].Perm (xrefKey :: place.take 7) := by decide
  have split : fixed = (xrefKey :: place.take 7) ++ (place.drop 7 ++ formula) := by
    simp [fixed, place]
  rw [split, List.append_assoc]
  unfold standard
  rw [List.append_assoc, List.append_assoc, List.append_assoc]
  refine leading.append ?_
  rw [← List.append_assoc ((upTo levels).map level)]
  exact List.perm_append_comm_assoc (levelColumns levels) (place.drop 7 ++ formula) filterColumns

theorem upTo_sublist {levels : Nat} (le : levels ≤ maxLevels) :
    (upTo levels).Sublist (upTo maxLevels) :=
  List.range'_sublist_right.mpr le

theorem standard_sublist {levels : Nat} (le : levels ≤ maxLevels) :
    (standard levels).Sublist (standard maxLevels) := by
  have upTo := upTo_sublist le
  unfold standard
  exact ((((List.Sublist.refl _).append (upTo.map _)).append (upTo.map _)).append
    (List.Sublist.refl _)).append (List.Sublist.refl _)

theorem nodup_columns :
    (foreign ++ (fixed ++ (levelColumns maxLevels ++ filterColumns))).Nodup := by
  decide

theorem nodup_fixed : fixed.Nodup :=
  (List.nodup_append'.mp (List.nodup_append'.mp nodup_columns).2.1).1

theorem nodup_place : place.Nodup :=
  (List.nodup_append'.mp (List.nodup_cons.mp nodup_fixed).2).1

theorem nodup_levelColumns : (levelColumns maxLevels).Nodup :=
  (List.nodup_append'.mp (List.nodup_append'.mp (List.nodup_append'.mp nodup_columns).2.1).2.1).1

theorem nodup_filterColumns : filterColumns.Nodup :=
  (List.nodup_append'.mp (List.nodup_append'.mp (List.nodup_append'.mp nodup_columns).2.1).2.1).2.1

/-- The classes of columns are disjoint. -/
theorem disjoint_columns (c : String) :
    (c ∈ place → c ≠ xrefKey ∧ c ∉ formula ∧ c ∉ levelColumns maxLevels ∧ c ∉ filterColumns) ∧
      (c = xrefKey → c ∉ formula ∧ c ∉ levelColumns maxLevels ∧ c ∉ filterColumns) ∧
      (c ∈ formula → c ∉ levelColumns maxLevels ∧ c ∉ filterColumns) ∧
      (c ∈ levelColumns maxLevels → c ∉ filterColumns) := by
  obtain ⟨-, nodup, -⟩ := List.nodup_append'.mp nodup_columns
  obtain ⟨-, numbered, apart⟩ := List.nodup_append'.mp nodup
  obtain ⟨fresh, rest⟩ := List.nodup_cons.mp nodup_fixed
  have placed := (List.nodup_append'.mp rest).2.2
  have levels := (List.nodup_append'.mp numbered).2.2
  have outside : c ∈ fixed → c ∉ levelColumns maxLevels ∧ c ∉ filterColumns := by
    intro mem
    exact ⟨fun hc => apart mem (List.mem_append_left _ hc),
      fun hc => apart mem (List.mem_append_right _ hc)⟩
  refine ⟨fun hc => ⟨?_, fun hf => placed hc hf, outside (by simp [fixed, hc])⟩, fun hc => ?_,
    fun hc => outside (by simp [fixed, hc]), fun hc hf => levels hc hf⟩
  · rintro rfl
    exact fresh (List.mem_append_left _ hc)
  · subst hc
    exact ⟨fun hf => fresh (List.mem_append_right _ hf), outside (by simp [fixed])⟩

theorem fixed_notMem_filterColumns {c : String} (mem : c ∈ fixed) : c ∉ filterColumns := by
  obtain ⟨-, nodup, -⟩ := List.nodup_append'.mp nodup_columns
  obtain ⟨-, -, apart⟩ := List.nodup_append'.mp nodup
  exact fun hc => apart mem (List.mem_append_right _ hc)

theorem parents_notMem : ∀ c ∈ [parentId, parentXrefKey], c ∉ place.take 5 ++ place.drop 7 := by
  decide

theorem upTo_eq_map (n : Nat) : upTo n = (List.range n).map (· + 1) := by
  rw [upTo, List.range'_eq_map_range]
  exact List.map_congr_left fun k _ => Nat.add_comm 1 k

theorem succ_mem_upTo {k n : Nat} : k + 1 ∈ upTo n ↔ k < n := by
  rw [upTo, List.mem_range'_1]
  omega

section Levels

variable {j k : Nat} (hj : j ∈ upTo maxLevels) (hk : k ∈ upTo maxLevels)

include hj hk

theorem level_inj (same : level j = level k) : j = k :=
  List.inj_on_of_nodup_map (List.nodup_append'.mp nodup_levelColumns).1 hj hk same

theorem levelOrder_inj (same : levelOrder j = levelOrder k) : j = k :=
  List.inj_on_of_nodup_map (List.nodup_append'.mp nodup_levelColumns).2.1 hj hk same

theorem level_ne_levelOrder : level j ≠ levelOrder k := by
  intro same
  refine (List.nodup_append'.mp nodup_levelColumns).2.2 (List.mem_map_of_mem hj) ?_
  rw [same]
  exact List.mem_map_of_mem hk

end Levels

theorem isWords_standard : ∀ c ∈ standard maxLevels, isWords c = true := by
  decide

section Standard

variable {levels : Nat} (le : levels ≤ maxLevels)

include le

/-- The columns of the standard layout are distinct. -/
theorem nodup_standard : (standard levels).Nodup := by
  have nodup := (List.nodup_append'.mp nodup_columns).2.1
  exact ((perm_standard maxLevels).nodup_iff.mpr nodup).sublist (standard_sublist le)

theorem notMem_standard_of_foreign {c : String} (mem : c ∈ foreign) : c ∉ standard levels := by
  intro known
  have apart := (List.nodup_append'.mp nodup_columns).2.2
  exact apart mem ((perm_standard maxLevels).mem_iff.mp ((standard_sublist le).subset known))

theorem canonical_standard {c : String} (mem : c ∈ standard levels) : IsCanonical c :=
  canonical_of_words (isWords_standard c ((standard_sublist le).subset mem))

theorem known_of_mem_standard {c : String} (mem : c ∈ standard levels) : c ∈ known := by
  unfold known
  rw [List.mem_append, List.mem_append]
  exact Or.inl (Or.inl ((standard_sublist le).subset mem))

end Standard

theorem mem_standard_of_fixed {c : String} (mem : c ∈ fixed) (levels : Nat) :
    c ∈ standard levels :=
  (perm_standard levels).mem_iff.mpr (List.mem_append_left _ mem)

theorem mem_standard_of_filterColumns {c : String} (mem : c ∈ filterColumns) (levels : Nat) :
    c ∈ standard levels :=
  (perm_standard levels).mem_iff.mpr (List.mem_append_right _ (List.mem_append_right _ mem))

theorem known_of_fixed {c : String} (mem : c ∈ fixed) : c ∈ known :=
  known_of_mem_standard (Nat.le_refl _) (mem_standard_of_fixed mem maxLevels)

theorem known_of_filterColumns {c : String} (mem : c ∈ filterColumns) : c ∈ known :=
  known_of_mem_standard (Nat.le_refl _) (mem_standard_of_filterColumns mem maxLevels)

theorem known_of_levelColumns {c : String} (mem : c ∈ levelColumns maxLevels) : c ∈ known :=
  known_of_mem_standard (Nat.le_refl _) ((perm_standard maxLevels).mem_iff.mpr
    (List.mem_append_right _ (List.mem_append_left _ mem)))

theorem known_of_mem_foreign {c : String} (mem : c ∈ foreign) : c ∈ known := by
  rcases List.mem_append.mp mem with mem | mem
  · have named : c = sourceTable ∨ c = sourceColumn := by simpa using mem
    rcases named with rfl | rfl <;> simp [known, legacy]
  · simp [known, legacy, mem]

end Column

end Rollup

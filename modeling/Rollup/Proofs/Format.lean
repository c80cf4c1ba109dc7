import Mathlib.Data.List.Basic
import Mathlib.Tactic.SplitIfs
import Rollup.Format
import Rollup.Proofs.Text.Fold
import Rollup.Table

/-!
# The columns that a detected format promises

A column counts for a format if some header spells it, and it is read if its name is the canonical
name of some header. A header may leave out the separators between the words and still spell the
column, and it may write a K as the Kelvin sign; in both cases it has another canonical name. In all
other cases the two agree.

Results:

* `runsFrom_of_afterWords?`: the words of a header that spells a column.
* `normalize_of_spells`: when a header that spells a column has its name.
* `not_normalize_of_spells`: a header that spells a column of another name.
-/

namespace Rollup

/-! ## Runs -/

namespace Text

section Runs

variable {keep : Char → Bool} {gap : List Char} (skipped : ∀ c ∈ gap, keep c = false)

include skipped

/-- What is skipped in front of the first run does not matter. -/
theorem runs_skipped (rest : List Char) : runs keep (gap ++ rest) = runs keep rest := by
  unfold runs
  induction gap with
  | nil => rfl
  | cons c gap ih =>
    rw [List.cons_append, runsFrom, if_neg (by simp [skipped c]),
      ih fun d hd => skipped d (by simp [hd])]

/-- What is skipped behind a run ends it. -/
theorem runsFrom_skipped (ne : gap ≠ []) {run : List Char} (filled : run ≠ []) (rest : List Char) :
    runsFrom keep run (gap ++ rest) = run.reverse :: runs keep rest := by
  obtain ⟨c, gap, rfl⟩ := List.exists_cons_of_ne_nil ne
  obtain ⟨a, run, rfl⟩ := List.exists_cons_of_ne_nil filled
  rw [List.cons_append, runsFrom, if_neg (by simp [skipped c])]
  exact congrArg _ (runs_skipped (fun d hd => skipped d (by simp [hd])) rest)

omit skipped in
theorem runsFrom_nil {run : List Char} (filled : run ≠ []) :
    runsFrom keep run [] = [run.reverse] := by
  obtain ⟨a, run, rfl⟩ := List.exists_cons_of_ne_nil filled
  rfl

/-- What is skipped at the end does not matter. -/
theorem runsFrom_append_skipped (cs : List Char) : ∀ run : List Char,
    runsFrom keep run (cs ++ gap) = runsFrom keep run cs := by
  induction cs with
  | nil =>
    intro run
    by_cases ne : gap = []
    · rw [ne, List.append_nil]
    · cases run with
      | nil =>
        have none := runs_skipped skipped []
        rwa [List.append_nil] at none
      | cons a run =>
        have one := runsFrom_skipped skipped ne (List.cons_ne_nil a run) []
        rw [List.append_nil] at one
        exact one
  | cons c cs ih =>
    intro run
    cases run with
    | nil => rw [List.cons_append, runsFrom, runsFrom, ih, ih]
    | cons a run => rw [List.cons_append, runsFrom, runsFrom, ih, ih]

end Runs

/-- The runs hold the characters that are kept. -/
theorem mem_flatten_runsFrom {keep : Char → Bool} {c : Char} (cs : List Char) : ∀ run : List Char,
    c ∈ (runsFrom keep run cs).flatten ↔ c ∈ run ∨ c ∈ cs ∧ keep c = true := by
  induction cs with
  | nil =>
    intro run
    cases run with
    | nil => simp [runsFrom]
    | cons a run => simp [runsFrom, or_comm]
  | cons d cs ih =>
    intro run
    have here : c = d ∧ keep c = true ↔ c = d ∧ keep d = true :=
      and_congr_right fun same => same ▸ Iff.rfl
    rw [List.mem_cons, or_and_right, here]
    cases run with
    | nil =>
      rw [runsFrom]
      split
      · rw [ih]
        simp_all
      · rw [ih]
        simp_all
    | cons a run =>
      rw [runsFrom]
      split
      · rw [ih, List.mem_cons]
        simp_all
        tauto
      · rw [List.flatten_cons, List.mem_append, List.mem_reverse, ih]
        simp_all

end Text

namespace Column

/-- The words of a header, in its own spelling. -/
def words (header : String) : List (List Char) :=
  Text.runs (fun c => !isSeparator c) header.toList

theorem isSeparator_of_isBlank {c : Char} (blank : Text.isBlank c = true) :
    isSeparator c = true := by
  rw [isSeparator, blank, Bool.or_true]

theorem not_kept_of_blank (cs : List Char) :
    ∀ c ∈ cs.takeWhile Text.isBlank, (!isSeparator c) = false := by
  intro c hc
  rw [isSeparator_of_isBlank (List.mem_takeWhile_imp hc), Bool.not_true]

/-- Blanks before a header are not in its words. -/
theorem words_eq (header : String) : words header =
    Text.runs (fun c => !isSeparator c) (header.toList.dropWhile Text.isBlank) := by
  rw [← Text.runs_skipped (not_kept_of_blank _), List.takeWhile_append_dropWhile]
  rfl

/-- Blanks around a header are not in its words. -/
theorem words_trim (header : String) : words (Text.trim header) = words header := by
  set body := header.toList.dropWhile Text.isBlank with hbody
  have back := Text.runsFrom_append_skipped
    (fun c hc => not_kept_of_blank body.reverse c (List.mem_reverse.mp hc))
    (Text.trimEndChars body) []
  rw [Text.trimEndChars_append_takeWhile] at back
  rw [words_eq header, words, Text.toList_trim, Text.trimChars]
  exact back.symm

/-- The canonical name of a header that does not begin with a mark. -/
theorem normalize_eq {header : String}
    (unmarked : ∀ c ∈ (header.toList.dropWhile Text.isBlank).head?, c ≠ byteOrderMark) :
    normalize header = Text.join "_" ((words header).map fun word =>
      String.ofList (word.flatMap Text.upperChar)) := by
  have bare : (Text.trim header).toList.dropWhile (· = byteOrderMark) =
      (Text.trim header).toList := by
    rw [List.dropWhile_eq_self_iff]
    intro bound
    rw [decide_eq_true_eq]
    refine unmarked _ (Text.head?_trimEndChars ?_)
    rw [Option.mem_def, List.head?_eq_getElem?]
    simp only [Text.toList_trim, Text.trimChars] at bound ⊢
    exact List.getElem?_eq_getElem bound
  rw [normalize, bare, ← words_trim]
  rfl

end Column

namespace Table

theorem columns_addRecords {t : Table} (canonical : t.columns = t.headers.map Column.normalize)
    (records : List Decoded) :
    (t.addRecords records).columns = (t.addRecords records).headers.map Column.normalize := by
  refine List.foldlRecOn (motive := fun t : Table => t.columns = t.headers.map Column.normalize)
    (records.zipIdx 1) _ canonical fun t canonical record _ => ?_
  split
  · unfold addRecord
    dsimp only
    split_ifs <;> exact canonical
  · exact canonical

/-- The columns of a file are the canonical names of its headers. -/
theorem columns_ofRecords {records : List Decoded} {t : Table} (read : ofRecords records = .ok t) :
    t.columns = t.headers.map Column.normalize := by
  unfold ofRecords at read
  split at read
  · cases read
  · cases read
  · dsimp only at read
    split_ifs at read
    cases read
    exact columns_addRecords rfl _

end Table

/-! ## Spelling -/

namespace Format

/-- A word of capitals and digits. -/
def IsWord (word : List Char) : Prop :=
  word ≠ [] ∧ ∀ c ∈ word, Column.isWordChar c = true

theorem folds_kept {w word : List Char} (isWord : IsWord word) (folds : Text.Folds w word) :
    w ≠ [] ∧ ∀ c ∈ w, (!Column.isSeparator c) = true := by
  obtain ⟨ne, chars⟩ := isWord
  constructor
  · rintro rfl
    cases folds
    exact ne rfl
  · clear ne
    induction folds with
    | nil => simp
    | @cons c u w word same _ ih =>
      intro d hd
      rcases List.mem_cons.mp hd with rfl | hd
      · rw [Text.isSeparator_of_foldChar (chars u (by simp)) same, Bool.not_false]
      · exact ih (fun v hv => chars v (by simp [hv])) d hd

/-- The first word of a header that spells some words. -/
theorem afterWords?_cons {word : List Char} {words : List (List Char)} {cs rest : List Char}
    (read : afterWords? (word :: words) cs = some rest) :
    ∃ w mid, Text.Folds w word ∧ cs = w ++ mid ∧ (words = [] ∧ mid = rest ∨
      words ≠ [] ∧ afterWords? words (mid.dropWhile Column.isSeparator) = some rest) := by
  cases words with
  | nil =>
    obtain ⟨w, folds, rfl⟩ := Text.afterFolded?_eq_some_iff.mp read
    exact ⟨w, rest, folds, rfl, Or.inl ⟨rfl, rfl⟩⟩
  | cons next words =>
    obtain ⟨mid, first, left⟩ := Option.bind_eq_some_iff.mp read
    obtain ⟨w, folds, rfl⟩ := Text.afterFolded?_eq_some_iff.mp first
    exact ⟨w, mid, folds, rfl, Or.inr ⟨List.cons_ne_nil next words, left⟩⟩

/-- The upper-case form of words that fold to words of capitals and digits. -/
theorem map_upper_of_folds {own words : List (List Char)}
    (folds : List.Forall₂ Text.Folds own words) (all : ∀ word ∈ words, IsWord word) (unsigned : Text.kelvin ∉ own.flatten) :
    (own.map fun w => w.flatMap Text.upperChar) = words := by
  induction folds with
  | nil => rfl
  | @cons w word own words first _ ih =>
    rw [List.flatten_cons, List.mem_append, not_or] at unsigned
    rw [List.map_cons, Text.flatMap_upperChar_of_folds first (all word (by simp)).2 unsigned.1,
      ih (fun v hv => all v (by simp [hv])) unsigned.2]

/-- A header that spells some words has at most as many words itself. If it has as many, they are
    those, up to case folding; `run` is what stands before the header without a separator. -/
theorem runsFrom_of_afterWords? {words : List (List Char)} (all : ∀ word ∈ words, IsWord word)
    {rest : List Char} (blank : ∀ c ∈ rest, (!Column.isSeparator c) = false) :
    ∀ cs run : List Char, words ≠ [] → afterWords? words cs = some rest →
      let own := Text.runsFrom (fun c => !Column.isSeparator c) run cs
      own.length ≤ words.length ∧ (own.length = words.length →
        ∃ w ws, List.Forall₂ Text.Folds (w :: ws) words ∧ own = (run.reverse ++ w) :: ws) := by
  induction words with
  | nil =>
    intro cs run ne
    exact absurd rfl ne
  | cons word words ih =>
    intro cs run _ read own
    have later := ih fun w hw => all w (List.mem_cons_of_mem word hw)
    obtain ⟨w, mid, folds, rfl, left⟩ := afterWords?_cons read
    obtain ⟨filled, kept⟩ := folds_kept (all word List.mem_cons_self) folds
    have longer : w.reverse ++ run ≠ [] := by simp [filled]
    have whole : (w.reverse ++ run).reverse = run.reverse ++ w := by simp
    have own_eq : own = Text.runsFrom (fun c => !Column.isSeparator c) (w.reverse ++ run) mid :=
      Text.runsFrom_append kept mid run
    rcases left with ⟨rfl, rfl⟩ | ⟨more, read⟩
    · rw [own_eq, ← List.nil_append mid, Text.runsFrom_append_skipped blank,
        Text.runsFrom_nil longer, whole]
      exact ⟨Nat.le_refl 1, fun _ => ⟨w, [], .cons folds .nil, rfl⟩⟩
    · by_cases joined : mid.takeWhile Column.isSeparator = []
      · -- the next word follows without a separator
        have same : mid.dropWhile Column.isSeparator = mid := by
          have split := List.takeWhile_append_dropWhile (p := Column.isSeparator) (l := mid)
          rwa [joined, List.nil_append] at split
        rw [same] at read
        have fewer := (later mid (w.reverse ++ run) more read).1
        rw [← own_eq] at fewer
        rw [List.length_cons]
        exact ⟨by omega, fun equal => by omega⟩
      · have split : own = (run.reverse ++ w) ::
            Text.runs (fun c => !Column.isSeparator c) (mid.dropWhile Column.isSeparator) := by
          rw [own_eq, ← whole, ← Text.runsFrom_skipped _ joined longer,
            List.takeWhile_append_dropWhile]
          intro c hc
          rw [List.mem_takeWhile_imp hc, Bool.not_true]
        obtain ⟨fewer, equal⟩ := later _ [] more read
        rw [split, List.length_cons, List.length_cons]
        refine ⟨Nat.succ_le_succ fewer, fun same => ?_⟩
        obtain ⟨w', ws, others, rest_eq⟩ := equal (Nat.succ_inj.mp same)
        exact ⟨w, w' :: ws, .cons folds others, congrArg _ rest_eq⟩

/-- What stands in a header that spells some words. -/
theorem mem_of_afterWords? {words : List (List Char)} {rest : List Char} : ∀ {cs : List Char},
    afterWords? words cs = some rest → ∀ c ∈ cs, Column.isSeparator c = true ∨ c ∈ rest ∨
      ∃ word ∈ words, ∃ u ∈ word, Text.foldChar c = Text.foldChar u := by
  induction words with
  | nil =>
    intro cs read c hc
    cases read
    exact Or.inr (Or.inl hc)
  | cons word words ih =>
    intro cs read c hc
    obtain ⟨w, mid, folds, rfl, left⟩ := afterWords?_cons read
    rcases List.mem_append.mp hc with hc | hc
    · obtain ⟨u, hu, same⟩ := Text.exists_of_folds folds hc
      exact Or.inr (Or.inr ⟨word, by simp, u, hu, same⟩)
    · rcases left with ⟨-, rfl⟩ | ⟨-, read⟩
      · exact Or.inr (Or.inl hc)
      · rw [← List.takeWhile_append_dropWhile (p := Column.isSeparator) (l := mid),
          List.mem_append] at hc
        rcases hc with hc | hc
        · exact Or.inl (List.mem_takeWhile_imp hc)
        · rcases ih read c hc with separator | last | ⟨other, hother, u, hu, same⟩
          · exact Or.inl separator
          · exact Or.inr (Or.inl last)
          · exact Or.inr (Or.inr ⟨other, by simp [hother], u, hu, same⟩)

/-! ## Names -/

/-- The columns that the formats are told by. -/
def columns : List String :=
  legacyFamily ++ hierarchyFamily ++ mappingFamily

theorem isWords_columns : ∀ column ∈ columns, Column.isWords column = true := by
  decide

theorem kelvin_mem_words_iff {header : String} :
    Text.kelvin ∈ (Column.words header).flatten ↔ Text.kelvin ∈ header.toList := by
  rw [Column.words, Text.runs, Text.mem_flatten_runsFrom]
  have kept : (!Column.isSeparator Text.kelvin) = true := by decide
  simp [kept]

section Spelled

variable {column : String}

/-- The words of a column. -/
theorem isWord_of_isWords (isWords : Column.isWords column = true) :
    ∀ word ∈ column.toList.splitOn '_', IsWord word := by
  intro word hword
  have each := List.all_eq_true.mp isWords word hword
  rwa [Bool.and_eq_true, Bool.not_eq_true', List.isEmpty_eq_false_iff, List.all_eq_true] at each

theorem words_of_isWords (isWords : Column.isWords column = true) :
    Column.words column = column.toList.splitOn '_' := by
  have joined : ['_'].intercalate (column.toList.splitOn '_') = column.toList :=
    List.intercalate_splitOn '_'
  rw [Column.words]
  nth_rewrite 1 [← joined]
  refine Text.runs_intercalate (by decide) fun word hword => ?_
  obtain ⟨ne, chars⟩ := isWord_of_isWords isWords word hword
  exact ⟨ne, fun c hc => by rw [Column.isSeparator_of_isWordChar (chars c hc), Bool.not_false]⟩

theorem isWord_of_mem_words (isWords : Column.isWords column = true) :
    ∀ word ∈ Column.words column, IsWord word := by
  rw [words_of_isWords isWords]
  exact isWord_of_isWords isWords

theorem words_ne_nil (isWords : Column.isWords column = true) : Column.words column ≠ [] := by
  rw [words_of_isWords isWords]
  exact List.splitOn_ne_nil _ _

variable {header : String} (isWords : Column.isWords column = true)
  (spelled : spells column header = true)

include isWords spelled

/-- A header that spells a column is read from its first word on, and leaves blanks only. -/
theorem exists_rest : ∃ rest, afterWords? (Column.words column)
    (header.toList.dropWhile Text.isBlank) = some rest ∧ ∀ c ∈ rest, Text.isBlank c = true := by
  unfold spells at spelled
  rw [words_of_isWords isWords]
  split at spelled
  · cases spelled
  · rename_i rest read
    exact ⟨rest, read, List.all_eq_true.mp spelled⟩

/-- A header has at most as many words as a column that it spells. If it has as many, they are
    those of the column, up to case folding. -/
theorem words_of_spells : (Column.words header).length ≤ (Column.words column).length ∧
    ((Column.words header).length = (Column.words column).length →
      List.Forall₂ Text.Folds (Column.words header) (Column.words column)) := by
  obtain ⟨rest, read, blank⟩ := exists_rest isWords spelled
  have skipped : ∀ c ∈ rest, (!Column.isSeparator c) = false := by
    intro c hc
    rw [Column.isSeparator_of_isBlank (blank c hc), Bool.not_true]
  obtain ⟨fewer, equal⟩ := runsFrom_of_afterWords? (isWord_of_mem_words isWords) skipped _ []
    (words_ne_nil isWords) read
  rw [Column.words_eq header]
  refine ⟨fewer, fun same => ?_⟩
  obtain ⟨w, ws, folds, own⟩ := equal same
  rw [Text.runs, own]
  exact folds

/-- The characters of a header that spells a column, besides separators. -/
theorem folds_of_spells {c : Char} (mem : c ∈ header.toList.dropWhile Text.isBlank)
    (kept : Column.isSeparator c = false) :
    ∃ u, Column.isWordChar u = true ∧ Text.foldChar c = Text.foldChar u := by
  obtain ⟨rest, read, blank⟩ := exists_rest isWords spelled
  rcases mem_of_afterWords? read c mem with separator | last | ⟨word, hword, u, hu, same⟩
  · rw [kept] at separator
    cases separator
  · rw [Column.isSeparator_of_isBlank (blank c last)] at kept
    cases kept
  · exact ⟨u, (isWord_of_mem_words isWords word hword).2 u hu, same⟩

/-- A header that spells a column does not begin with a mark. -/
theorem unmarked_of_spells :
    ∀ c ∈ (header.toList.dropWhile Text.isBlank).head?, c ≠ Column.byteOrderMark := by
  rintro c hc rfl
  obtain ⟨u, word, same⟩ := folds_of_spells isWords spelled (List.mem_of_mem_head? hc)
    (by decide)
  rcases Text.cases_of_foldChar word same with ⟨ascii, -⟩ | ⟨long, -⟩ | ⟨sign, -⟩
  · exact absurd ascii (by decide)
  · exact absurd long (by decide)
  · exact absurd sign (by decide)

/-- The characters in the words of a header that spells a column. -/
theorem upper_of_spells {c : Char} (mem : c ∈ (Column.words header).flatten) :
    c = Text.kelvin ∨ ∃ u, Column.isWordChar u = true ∧ Text.upperChar c = [u] := by
  rw [Column.words_eq, Text.runs, Text.mem_flatten_runsFrom] at mem
  rcases mem with mem | ⟨mem, kept⟩
  · cases mem
  · obtain ⟨u, word, same⟩ := folds_of_spells isWords spelled mem (by simpa using kept)
    by_cases sign : c = Text.kelvin
    · exact Or.inl sign
    · exact Or.inr ⟨u, word, Text.upperChar_of_foldChar word same sign⟩

/-- A header that spells a column has a word. -/
theorem words_ne_nil_of_spells : Column.words header ≠ [] := by
  obtain ⟨rest, read, -⟩ := exists_rest isWords spelled
  have named := isWord_of_mem_words isWords
  cases hcolumn : Column.words column with
  | nil => exact absurd hcolumn (words_ne_nil isWords)
  | cons word words =>
    rw [hcolumn] at read named
    obtain ⟨w, mid, folds, body, -⟩ := afterWords?_cons read
    obtain ⟨filled, kept⟩ := folds_kept (named word (by simp)) folds
    obtain ⟨c, w, rfl⟩ := List.exists_cons_of_ne_nil filled
    rw [Column.words_eq, body]
    intro none
    have blank := ((Text.runsFrom_filled _ _ []).2.mp none).2 c (by simp)
    rw [kept c (by simp)] at blank
    cases blank

/-- The words of the canonical name of a header that spells a column. -/
theorem splitOn_normalize :
    (Column.normalize header).toList.splitOn '_' =
      (Column.words header).map fun word => word.flatMap Text.upperChar := by
  rw [Column.normalize_eq (unmarked_of_spells isWords spelled), Text.toList_join, List.map_map]
  have plain : ((Column.words header).map (String.toList ∘ fun word =>
      String.ofList (word.flatMap Text.upperChar))) =
        (Column.words header).map fun word => word.flatMap Text.upperChar :=
    List.map_congr_left fun word _ => String.toList_ofList
  rw [plain]
  refine List.splitOn_intercalate _ (fun part hpart underscore => ?_)
    (by simpa using words_ne_nil_of_spells isWords spelled)
  obtain ⟨word, hword, rfl⟩ := List.mem_map.mp hpart
  obtain ⟨c, hc, upper⟩ := List.mem_flatMap.mp underscore
  rcases upper_of_spells isWords spelled (List.mem_flatten.mpr ⟨word, hword, hc⟩) with
    rfl | ⟨u, isWord, eq⟩
  · exact absurd upper (by decide)
  · rw [eq, List.mem_singleton] at upper
    rw [← upper] at isWord
    exact absurd isWord (by decide)

/-- A header that spells a column has its name if and only if it has its number of words and no
    Kelvin sign. -/
theorem normalize_iff_of_spells : Column.normalize header = column ↔
    (Column.words header).length = (Column.words column).length ∧ Text.kelvin ∉ header.toList := by
  have named := isWord_of_mem_words isWords
  have columnWords := words_of_isWords isWords
  have split := splitOn_normalize isWords spelled
  rw [← kelvin_mem_words_iff]
  constructor
  · intro same
    rw [same, ← columnWords] at split
    refine ⟨?_, fun sign => ?_⟩
    · rw [split, List.length_map]
    · obtain ⟨word, hword, mem⟩ := List.mem_flatten.mp sign
      have upper : Text.kelvin ∈ word.flatMap Text.upperChar :=
        List.mem_flatMap.mpr ⟨Text.kelvin, mem, by decide⟩
      have chars := (named _ (split ▸ List.mem_map_of_mem hword)).2 _ upper
      exact absurd chars (by decide)
  · rintro ⟨same, unsigned⟩
    have folds := (words_of_spells isWords spelled).2 same
    rw [map_upper_of_folds folds named unsigned, columnWords] at split
    have joined := congrArg (['_'].intercalate ·) split
    simp only [List.intercalate_splitOn] at joined
    exact String.toList_inj.mp joined

end Spelled

/-! ## Files -/

/-- A header that spells a column of a format has its name, and the column is found in every file
    with this header, if there is a separator between all words of the name, and no K is written as
    the Kelvin sign. Otherwise the header has another name. -/
theorem normalize_of_spells {column : String} (family : column ∈ columns) {header : String}
    (spelled : spells column header = true) :
    (Column.normalize header = column ↔
      (Column.words header).length = (Column.words column).length ∧
        Text.kelvin ∉ header.toList) ∧
    ((Column.words header).length = (Column.words column).length →
      Text.kelvin ∉ header.toList → ∀ records t, Table.ofRecords records = .ok t →
        header ∈ t.headers → t.hasColumn column = true) := by
  have named := normalize_iff_of_spells (isWords_columns column family) spelled
  refine ⟨named, fun separated unsigned records t read mem => ?_⟩
  rw [Table.hasColumn, List.contains_iff_mem, Table.columns_ofRecords read,
    ← named.mpr ⟨separated, unsigned⟩]
  exact List.mem_map_of_mem mem

/-- A header with a long s, other separators and blanks around it. -/
theorem normalize_of_spells_longS :
    spells "SOURCE_SCHEMA" " ſource--\tSchema " = true ∧
      Column.normalize " ſource--\tSchema " = "SOURCE_SCHEMA" :=
  ⟨by decide, (normalize_of_spells (by decide) (by decide)).1.mpr
    ⟨by decide, by decide⟩⟩

/-- A header that spells a column can have another name. -/
theorem not_normalize_of_spells : ¬ ∀ column ∈ columns, ∀ header, spells column header = true →
    Column.normalize header = column := by
  intro claimed
  have same := claimed "HIERARCHY_ID" (by decide) "HIERARCHYID" (by decide)
  have name : Column.normalize "HIERARCHYID" = "HIERARCHYID" := by decide
  rw [name] at same
  exact absurd same (by decide)

/-- The Kelvin sign in the place of the K. -/
example : spells "XREF_KEY" "XREF_\u212AEY" = true ∧
    Column.normalize "XREF_\u212AEY" ≠ "XREF_KEY" := by
  decide

end Format

end Rollup

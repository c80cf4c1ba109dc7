import Mathlib.Tactic.SplitIfs
import Rollup.Proofs.Format
import Rollup.Proofs.Text.Fold
import Rollup.Proofs.Text.Segments

/-!
# Canonical names of headers

The canonical name of a header consists of its words in upper case. Upper-casing is finished after
one step and makes no separators, so the canonical name has the same words and is its own canonical
name. Spellings of a header that differ in the case of ASCII letters, or in what separates the words
and surrounds them, have the same words in upper case.

Only a byte order mark does not fit in: it is dropped in front of a header, but is a character like
any other behind a separator.

Results:

* `upperChar_of_mem`: upper-casing once more changes nothing.
* `runsFrom_append_gap`: the runs before and after a gap.
* `normalize_eq_iff`: headers have one canonical name iff their words agree in upper case.
* `Restyled.upperWords_eq`: the spellings of a header have its words.
* `normalize_canonical`: what the canonical name of a header is.
-/

namespace Rollup

namespace Text

/-! ## Upper case once more -/

/-- The code points that a run leads to. -/
def CaseRun.target (r : CaseRun) : CaseRun :=
  ⟨((r.first : Int) + r.delta).toNat, ((r.last : Int) + r.delta).toNat, r.step, 0⟩

/-- Whether two runs are told apart by their ends, or as even and odd numbers. -/
def CaseRun.apart (r q : CaseRun) : Bool :=
  Nat.blt r.last q.first || Nat.blt q.last r.first ||
    (Nat.beq r.first r.last || Nat.beq r.step 2) && Nat.beq q.step 2 &&
      Nat.beq ((r.first + q.first) % 2) 1

/-- The code points outside ASCII with another upper-case form. -/
def smallRuns : List CaseRun :=
  upperRuns ++ upperExpansions.map fun p => ⟨p.1, p.1, 1, 0⟩

-- the comparisons are those of `Nat`, which the kernel computes without unfolding an order
theorem apart_smallRuns : ∀ r ∈ upperRuns, smallRuns.all r.target.apart = true := by
  decide +kernel

theorem upperChar_expansions : ∀ p ∈ upperExpansions, ∀ n ∈ p.2,
    upperChar (Char.ofNat n) = [Char.ofNat n] := by
  decide +kernel

theorem upperChar_ascii : ∀ c : Char, c.toNat < 0x80 → upperChar c.toUpper = [c.toUpper] :=
  forall_ascii (by decide)

/-- What a run leads to is in no run that its target is apart from. -/
theorem image?_eq_none_of_apart {r q : CaseRun} (proper : (0 : Int) ≤ r.first + r.delta)
    (apart : r.target.apart q = true) {n m : Nat} (moved : r.image? n = some m) :
    q.image? m = none := by
  obtain ⟨⟨after, before, steps⟩, moved⟩ := CaseRun.image?_eq_some_iff.mp moved
  refine if_neg fun held => ?_
  obtain ⟨after', before', steps'⟩ := held
  simp only [CaseRun.apart, CaseRun.target, Bool.or_eq_true, Bool.and_eq_true, Nat.blt_eq,
    Nat.beq_eq] at apart
  rcases apart with (below | above) | ⟨⟨single | pairs, pairs'⟩, odd⟩
  · omega
  · omega
  -- the code point would be even and odd
  · rw [pairs'] at steps'
    omega
  · rw [pairs] at steps
    rw [pairs'] at steps'
    omega

/-- A code point outside ASCII and outside the runs of small characters. -/
theorem upperChar_ofNat {n : Nat} (outside : 0x80 ≤ n)
    (apart : ∀ q ∈ smallRuns, q.image? n = none) : upperChar (Char.ofNat n) = [Char.ofNat n] := by
  rcases toNat_ofNat_or n with code | null
  · have single : upperExpansions.lookup n = none := by
      refine List.lookup_eq_none_iff.mpr fun p hp => bne_iff_ne.mpr ?_
      have own := apart _ (List.mem_append_right _ (List.mem_map_of_mem hp))
      rintro rfl
      simp [CaseRun.image?] at own
    have still : moveBy upperRuns n = n := by
      rw [moveBy, List.findSome?_eq_none_iff.mpr fun q hq => apart q (List.mem_append_left _ hq),
        Option.getD_none]
    rw [upperChar, code, if_neg (by omega), single, still]
  · rw [null]
    decide

/-- Upper-casing a character of an upper-case form changes nothing. -/
theorem upperChar_of_mem {c u : Char} (mem : u ∈ upperChar c) : upperChar u = [u] := by
  rcases cases_of_mem_upperChar mem with ⟨ascii, rfl⟩ | ⟨p, hp, -, n, hn, rfl⟩ |
    ⟨r, hr, m, hm, rfl⟩ | ⟨own, rfl⟩
  · exact upperChar_ascii c ascii
  · exact upperChar_expansions p hp n hn
  · obtain ⟨inside, moved⟩ := CaseRun.image?_eq_some_iff.mp hm
    rcases upperRuns_into_ascii r hr with high | ⟨single, capital⟩
    · have apart := List.all_eq_true.mp (apart_smallRuns r hr)
      exact upperChar_ofNat (by omega)
        fun q hq => image?_eq_none_of_apart (by omega) (apart q hq) hm
    · rw [show (r.first : Int) = c.toNat by omega, moved] at capital
      exact Column.upperChar_of_isWordChar (by rw [Column.isWordChar, capital, Bool.true_or])
  · exact own

theorem flatMap_upperChar_eq_self {word : List Char} (upper : ∀ u ∈ word, upperChar u = [u]) :
    word.flatMap upperChar = word :=
  (List.flatMap_congr upper).trans (List.flatMap_singleton' word)

/-! ## Gaps between runs -/

section Gaps

variable {keep : Char → Bool}

/-- The runs of a text with a gap are those before it and those after it. -/
theorem runsFrom_append_gap {gap : List Char} (skipped : ∀ c ∈ gap, keep c = false)
    (ne : gap ≠ []) (rest cs : List Char) : ∀ run : List Char,
    runsFrom keep run (cs ++ (gap ++ rest)) = runsFrom keep run cs ++ runs keep rest := by
  -- the gap ends the run that is open where `cs` ends, if there is one
  induction cs with
  | nil =>
    intro run
    cases run with
    | nil => exact runs_skipped skipped rest
    | cons a run => exact runsFrom_skipped skipped ne (List.cons_ne_nil a run) rest
  | cons c cs ih =>
    intro run
    cases run with
    | nil =>
      rw [List.cons_append, runsFrom, runsFrom]
      split_ifs
      · exact ih [c]
      · exact ih []
    | cons a run =>
      rw [List.cons_append, runsFrom, runsFrom]
      split_ifs
      · exact ih (c :: a :: run)
      · rw [ih, List.cons_append]

/-- The runs of a text whose characters are replaced by others of their kind. -/
theorem runsFrom_map {f : Char → Char} (same : ∀ c, keep (f c) = keep c) (cs : List Char) :
    ∀ run : List Char, runsFrom keep (run.map f) (cs.map f) =
      (runsFrom keep run cs).map (List.map f) := by
  induction cs with
  | nil =>
    intro run
    cases run with
    | nil => rfl
    | cons a run => simp [runsFrom]
  | cons c cs ih =>
    intro run
    have next := ih []
    cases run with
    | nil =>
      rw [List.map_nil, List.map_cons, runsFrom, runsFrom, same]
      split_ifs
      · exact ih [c]
      · exact next
    | cons a run =>
      rw [List.map_cons, List.map_cons, runsFrom, runsFrom, same]
      split_ifs
      · exact ih (c :: a :: run)
      · rw [List.map_cons, List.map_reverse, List.map_cons]
        exact congrArg _ next

end Gaps

end Text

namespace Column

/-! ## Characters of canonical names -/

theorem isSeparator_toLower_ascii : ∀ c : Char, c.toNat < 0x80 →
    isSeparator c.toLower = isSeparator c :=
  Text.forall_ascii (by decide)

theorem isSeparator_toLower (c : Char) : isSeparator c.toLower = isSeparator c := by
  by_cases ascii : c.toNat < 0x80
  · exact isSeparator_toLower_ascii c ascii
  · rw [Text.toLower_of_not_ascii ascii]

/-- Upper-casing makes no separator. -/
theorem isSeparator_of_mem_upperChar {c u : Char} (mem : u ∈ Text.upperChar c)
    (kept : isSeparator c = false) : isSeparator u = false := by
  simp only [isSeparator, Bool.or_eq_false_iff, decide_eq_false_iff_not] at kept ⊢
  obtain ⟨⟨underscore, hyphen⟩, solid⟩ := kept
  refine ⟨⟨?_, ?_⟩, ((Text.isBlank_upperChar c).2 u mem).trans solid⟩
  · rintro rfl
    exact underscore (Text.eq_of_mem_upperChar mem (by decide) (by decide) (by decide)).symm
  · rintro rfl
    exact hyphen (Text.eq_of_mem_upperChar mem (by decide) (by decide) (by decide)).symm

theorem upperRuns_unmarked : ∀ r ∈ Text.upperRuns,
    (r.last : Int) + r.delta < byteOrderMark.toNat ∨
      (byteOrderMark.toNat : Int) < r.first + r.delta := by
  decide +kernel

theorem upperExpansions_unmarked : ∀ p ∈ Text.upperExpansions, ∀ n ∈ p.2,
    Char.ofNat n ≠ byteOrderMark := by
  decide

theorem toUpper_unmarked : ∀ c : Char, c.toNat < 0x80 → c.toUpper ≠ byteOrderMark :=
  Text.forall_ascii (by decide)

/-- Upper-casing makes no byte order mark. -/
theorem eq_byteOrderMark_of_mem_upperChar {c : Char} (mem : byteOrderMark ∈ Text.upperChar c) :
    c = byteOrderMark := by
  rcases Text.cases_of_mem_upperChar mem with ⟨ascii, mark⟩ | ⟨p, hp, -, n, hn, mark⟩ |
    ⟨r, hr, m, hm, mark⟩ | ⟨-, mark⟩
  · exact absurd mark.symm (toUpper_unmarked c ascii)
  · exact absurd mark.symm (upperExpansions_unmarked p hp n hn)
  · obtain ⟨inside, moved⟩ := Text.CaseRun.image?_eq_some_iff.mp hm
    have proper : 0 < byteOrderMark.toNat := by decide
    have apart := upperRuns_unmarked r hr
    rcases Text.toNat_ofNat_or m with code | null
    · rw [← mark] at code
      omega
    · rw [null] at mark
      exact absurd mark (by decide)
  · exact mark.symm

/-! ## Words in upper case -/

/-- The words of a header in upper case. -/
def upperWords (header : String) : List (List Char) :=
  (words header).map fun word => word.flatMap Text.upperChar

/-- A word in upper case is not empty, has no separators, and keeps its form. -/
theorem upperWords_spec {header : String} {word : List Char} (mem : word ∈ upperWords header) :
    word ≠ [] ∧ (∀ u ∈ word, isSeparator u = false) ∧
      ∀ u ∈ word, Text.upperChar u = [u] := by
  obtain ⟨own, hown, rfl⟩ := List.mem_map.mp mem
  have kept := Text.mem_runsFrom header.toList [] (by simp) own hown
  refine ⟨?_, fun u hu => ?_, fun u hu => ?_⟩
  · obtain ⟨c, rest, rfl⟩ := List.exists_cons_of_ne_nil
      ((Text.runsFrom_filled (fun c => !isSeparator c) header.toList []).1 own hown)
    simp [(Text.isBlank_upperChar c).1]
  · obtain ⟨c, hc, hu⟩ := List.mem_flatMap.mp hu
    exact isSeparator_of_mem_upperChar hu (by simpa using kept c hc)
  · obtain ⟨c, -, hu⟩ := List.mem_flatMap.mp hu
    exact Text.upperChar_of_mem hu

theorem upperWords_unmarked {header : String} (unmarked : byteOrderMark ∉ header.toList)
    {word : List Char} (mem : word ∈ upperWords header) : byteOrderMark ∉ word := by
  intro mark
  obtain ⟨own, hown, rfl⟩ := List.mem_map.mp mem
  obtain ⟨c, hc, mark⟩ := List.mem_flatMap.mp mark
  obtain rfl := eq_byteOrderMark_of_mem_upperChar mark
  have held : byteOrderMark ∈ (words header).flatten := List.mem_flatten.mpr ⟨own, hown, hc⟩
  rcases (Text.mem_flatten_runsFrom header.toList []).mp held with none | ⟨inside, -⟩
  · cases none
  · exact unmarked inside

section Unmarked

variable {header : String} (unmarked : byteOrderMark ∉ header.toList)

include unmarked

theorem toList_normalize :
    (normalize header).toList = ['_'].intercalate (upperWords header) := by
  have bare : ∀ c ∈ (header.toList.dropWhile Text.isBlank).head?, c ≠ byteOrderMark := by
    rintro c hc rfl
    exact unmarked ((List.dropWhile_sublist _).subset (List.mem_of_mem_head? hc))
  rw [normalize_eq bare, Text.toList_join, List.map_map, upperWords]
  simp [Function.comp_def]

theorem unmarked_normalize : byteOrderMark ∉ (normalize header).toList := by
  rw [toList_normalize unmarked]
  intro mark
  rcases Text.mem_intercalate mark with mark | ⟨word, hword, mark⟩
  · exact absurd mark (by decide)
  · exact upperWords_unmarked unmarked hword mark

/-- The words of the canonical name are those of the header in upper case. -/
theorem words_normalize : words (normalize header) = upperWords header := by
  rw [words, toList_normalize unmarked]
  refine Text.runs_intercalate (by decide) fun word hword => ?_
  obtain ⟨filled, kept, -⟩ := upperWords_spec hword
  exact ⟨filled, fun c hc => by rw [kept c hc, Bool.not_false]⟩

theorem upperWords_normalize : upperWords (normalize header) = upperWords header := by
  rw [upperWords, words_normalize unmarked]
  exact (List.map_congr_left fun word hword =>
    Text.flatMap_upperChar_eq_self (upperWords_spec hword).2.2).trans (List.map_id' _)

/-- Headers have one canonical name exactly if they have the same words in upper case. -/
theorem normalize_eq_iff {header' : String} (unmarked' : byteOrderMark ∉ header'.toList) :
    normalize header' = normalize header ↔ upperWords header' = upperWords header := by
  constructor
  · intro same
    rw [← words_normalize unmarked, ← words_normalize unmarked', same]
  · intro same
    rw [← String.toList_inj, toList_normalize unmarked, toList_normalize unmarked', same]

theorem normalize_normalize : normalize (normalize header) = normalize header :=
  (normalize_eq_iff unmarked (unmarked_normalize unmarked)).mpr (upperWords_normalize unmarked)

/-- A canonical name has no blanks and no hyphens. -/
theorem plain_normalize {c : Char} (mem : c ∈ (normalize header).toList) :
    Text.isBlank c = false ∧ c ≠ '-' := by
  rw [toList_normalize unmarked] at mem
  rcases Text.mem_intercalate mem with underscore | ⟨word, hword, hc⟩
  · rw [List.mem_singleton.mp underscore]
    decide
  · have kept := (upperWords_spec hword).2.1 c hc
    simp only [isSeparator, Bool.or_eq_false_iff, decide_eq_false_iff_not] at kept
    exact ⟨kept.2, kept.1.2⟩

theorem spaced_normalize : Text.Spaced '_' (normalize header).toList := by
  rw [toList_normalize unmarked]
  refine Text.spaced_intercalate (fun word hword => (upperWords_spec hword).1) ?_
  intro word hword underscore
  exact absurd ((upperWords_spec hword).2.1 '_' underscore) (by decide)

end Unmarked

/-! ## Spellings of a header -/

/-- One or more separators. -/
def IsGap (gap : String) : Prop :=
  gap ≠ "" ∧ gap.toList.all isSeparator = true

instance : DecidablePred IsGap :=
  fun gap => inferInstanceAs (Decidable (gap ≠ "" ∧ gap.toList.all isSeparator = true))

/-- Spellings of one header: they differ in the case of ASCII letters, in a gap between two parts,
    in a gap at one end, or in several of these. -/
inductive Restyled : String → String → Prop where
  | recased {header header' : String} :
      Text.equalIgnoringAsciiCase header header' = true → Restyled header header'
  | separated {before gap gap' after : String} :
      IsGap gap → IsGap gap' → Restyled (before ++ gap ++ after) (before ++ gap' ++ after)
  | indented {gap header : String} : IsGap gap → Restyled header (gap ++ header)
  | extended {header gap : String} : IsGap gap → Restyled header (header ++ gap)
  | symm {header header' : String} : Restyled header header' → Restyled header' header
  | trans {header header' header'' : String} :
      Restyled header header' → Restyled header' header'' → Restyled header header''

theorem IsGap.skipped {gap : String} (h : IsGap gap) :
    ∀ c ∈ gap.toList, (!isSeparator c) = false := by
  intro c hc
  rw [List.all_eq_true.mp h.2 c hc, Bool.not_true]

theorem IsGap.unmarked {gap : String} (h : IsGap gap) : byteOrderMark ∉ gap.toList := by
  intro mark
  exact absurd (h.skipped byteOrderMark mark) (by decide)

/-- The words around a gap. -/
theorem IsGap.words_append {gap : String} (h : IsGap gap) (before after : String) :
    words (before ++ gap ++ after) = words before ++ words after := by
  have ne : gap.toList ≠ [] := by simpa using h.1
  rw [words, String.toList_append, String.toList_append, List.append_assoc]
  exact Text.runsFrom_append_gap h.skipped ne after.toList before.toList []

theorem IsGap.words_indented {gap : String} (h : IsGap gap) (header : String) :
    words (gap ++ header) = words header := by
  rw [words, String.toList_append]
  exact Text.runs_skipped h.skipped header.toList

theorem IsGap.words_extended {gap : String} (h : IsGap gap) (header : String) :
    words (header ++ gap) = words header := by
  rw [words, String.toList_append]
  exact Text.runsFrom_append_skipped h.skipped header.toList []

/-- The words in upper case can be taken from the header in lower case. -/
theorem upperWords_eq_lowered (header : String) : upperWords header =
    (Text.runs (fun c => !isSeparator c) (header.toList.map Char.toLower)).map
      fun word => word.flatMap Text.upperChar := by
  have same : ∀ c : Char, (!isSeparator c.toLower) = !isSeparator c := fun c => by
    rw [isSeparator_toLower]
  have lowered : Text.runs (fun c => !isSeparator c) (header.toList.map Char.toLower) =
      (words header).map (List.map Char.toLower) := Text.runsFrom_map same header.toList []
  rw [lowered, List.map_map, upperWords]
  refine List.map_congr_left fun word _ => ?_
  rw [Function.comp_apply, List.flatMap_map]
  exact List.flatMap_congr fun c _ => (Text.upperChar_toLower c).symm

/-- The spellings of a header have the same words in upper case. -/
theorem Restyled.upperWords_eq {header header' : String} (h : Restyled header header') :
    upperWords header' = upperWords header := by
  induction h with
  | recased same =>
    rw [Text.equalIgnoringAsciiCase, beq_iff_eq] at same
    rw [upperWords_eq_lowered, upperWords_eq_lowered, same]
  | separated gap gap' => rw [upperWords, upperWords, gap.words_append, gap'.words_append]
  | indented gap => rw [upperWords, upperWords, gap.words_indented]
  | extended gap => rw [upperWords, upperWords, gap.words_extended]
  | symm _ ih => exact ih.symm
  | trans _ _ first second => exact second.trans first

theorem byteOrderMark_toLower {c : Char} : c.toLower = byteOrderMark ↔ c = byteOrderMark := by
  by_cases ascii : c.toNat < 0x80
  · have low := (Text.toLower_ascii c ascii).2.1
    constructor
    · intro mark
      rw [mark] at low
      exact absurd low (by decide)
    · rintro rfl
      exact absurd ascii (by decide)
  · rw [Text.toLower_of_not_ascii ascii]

/-- The spellings of a header agree in whether they hold a byte order mark. -/
theorem Restyled.byteOrderMark_mem_iff {header header' : String} (h : Restyled header header') :
    byteOrderMark ∈ header'.toList ↔ byteOrderMark ∈ header.toList := by
  induction h with
  | @recased header header' same =>
    have lowered : ∀ cs : List Char, byteOrderMark ∈ cs.map Char.toLower ↔ byteOrderMark ∈ cs := by
      intro cs
      simp [List.mem_map, byteOrderMark_toLower]
    rw [Text.equalIgnoringAsciiCase, beq_iff_eq] at same
    rw [← lowered, ← same, lowered]
  | separated gap gap' => simp [gap.unmarked, gap'.unmarked]
  | indented gap => simp [gap.unmarked]
  | extended gap => simp [gap.unmarked]
  | symm _ ih => exact ih.symm
  | trans _ _ first second => exact second.trans first

/-! ## Canonical names -/

/-- A header without a byte order mark has a canonical name with no blanks and no hyphens, in which
    underscores stand alone between other characters. The name is its own canonical name, and all
    spellings of the header have it; another header has it exactly if its words are the same in
    upper case. -/
theorem normalize_canonical {header : String} (unmarked : byteOrderMark ∉ header.toList) :
    (∀ c ∈ (normalize header).toList, Text.isBlank c = false ∧ c ≠ '-') ∧
      Text.Spaced '_' (normalize header).toList ∧
      normalize (normalize header) = normalize header ∧
      (∀ header', Restyled header header' → normalize header' = normalize header) ∧
      ∀ header', byteOrderMark ∉ header'.toList →
        (normalize header' = normalize header ↔ upperWords header' = upperWords header) := by
  refine ⟨fun c => plain_normalize unmarked, spaced_normalize unmarked,
    normalize_normalize unmarked, fun header' restyled => ?_,
    fun header' => normalize_eq_iff unmarked⟩
  have unmarked' := mt restyled.byteOrderMark_mem_iff.mp unmarked
  exact (normalize_eq_iff unmarked unmarked').mpr restyled.upperWords_eq

/-- A small letter with two capitals as its upper-case form, another gap between the words, another
    case, and a gap in front. -/
theorem normalize_canonical_strasse : byteOrderMark ∉ ("\tstraße" ++ "--" ++ "Nr").toList ∧
    normalize ("\tstraße" ++ "--" ++ "Nr") = "STRASSE_NR" ∧
    normalize ("-_" ++ "\tSTRAßE _nR") = normalize ("\tstraße" ++ "--" ++ "Nr") := by
  have unmarked : byteOrderMark ∉ ("\tstraße" ++ "--" ++ "Nr").toList := by decide
  have respaced : Restyled ("\tstraße" ++ "--" ++ "Nr") ("\tstraße" ++ " _" ++ "Nr") :=
    .separated (by decide) (by decide)
  have recased : Restyled ("\tstraße" ++ " _" ++ "Nr") "\tSTRAßE _nR" := .recased (by decide)
  obtain ⟨-, -, -, restyled, -⟩ := normalize_canonical unmarked
  exact ⟨unmarked, by decide,
    restyled _ (respaced.trans (recased.trans (.indented (by decide))))⟩

/-- A mark behind a separator stays, and is dropped the next time. -/
example : normalize "_\uFEFFA" = "\uFEFFA" ∧ normalize "\uFEFFA" = "A" := by
  decide

end Column

end Rollup

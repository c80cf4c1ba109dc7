import Mathlib.Data.List.Basic
import Rollup.Check.Formulas
import Rollup.Proofs.Text.Slug

/-!
# What the checks of an expression find

The brackets of an expression are a well-nested word or not, and the other two slips are patterns
that occur in it or not. The scans for these patterns take every run of blanks and zeros whole. That
gives up no match: no blank is a zero, a point or a digit, and a number goes on after every zero but
the last.

Results:

* `balancedFrom_iff`: the scan of the brackets, from any depth.
* `startsWithZero_iff`: what is taken for a zero.
* `dividesByZero_iff`, `hasEmptyPlaceholder_iff`: where the scans succeed.
* `expressionProblems_exact`: what is reported of an expression.
-/

namespace Rollup.Check

/-! ## Patterns -/

/-- The words in which every bracket has its partner. -/
inductive WellNested : List Char → Prop where
  | nil : WellNested []
  | nest {inner rest : List Char} :
      WellNested inner → WellNested rest → WellNested ('(' :: inner ++ ')' :: rest)

/-- The brackets of a text. -/
def brackets (cs : List Char) : List Char :=
  cs.filter fun c => c = '(' || c = ')'

/-- A number can end here: at the end of the text, or before a character that is neither a digit nor
    a point. -/
def EndsNumber (cs : List Char) : Prop :=
  ∀ c ∈ cs.head?, Text.isDecimal c = false ∧ c ≠ '.'

/-- A text that begins with a zero: blanks, zeros, possibly a point and further zeros, blanks, and
    then a place where a number can end. -/
structure BeginsWithZero (blanks zeros fraction gap rest : List Char) : Prop where
  before : ∀ c ∈ blanks, Text.isBlank c = true
  filled : zeros ≠ []
  whole : ∀ c ∈ zeros, c = '0'
  decimals : fraction = [] ∨ ∃ more, fraction = '.' :: more ∧ ∀ c ∈ more, c = '0'
  behind : ∀ c ∈ gap, Text.isBlank c = true
  ends : EndsNumber rest

/-- A slash stands in front of a zero. -/
def DividesByZero (cs : List Char) : Prop :=
  ∃ before blanks zeros fraction gap rest, BeginsWithZero blanks zeros fraction gap rest ∧
    cs = before ++ '/' :: (blanks ++ (zeros ++ (fraction ++ (gap ++ rest))))

/-- An opening brace, blanks and a closing brace stand next to each other. -/
def HasEmptyPlaceholder (cs : List Char) : Prop :=
  ∃ before blanks rest, (∀ c ∈ blanks, Text.isBlank c = true) ∧
    cs = before ++ '{' :: (blanks ++ '}' :: rest)

/-! ## Brackets -/

/-- A word that closes `depth` open brackets and is well-nested besides. -/
def Closes : (depth : Nat) → List Char → Prop
  | 0, w => WellNested w
  | depth + 1, w => ∃ inner rest, w = inner ++ ')' :: rest ∧ WellNested inner ∧ Closes depth rest

/-- A well-nested word in brackets may stand in front of a word that closes others. -/
theorem Closes.nest {inner : List Char} (nested : WellNested inner) :
    ∀ {depth : Nat} {rest : List Char}, Closes depth rest →
      Closes depth ('(' :: inner ++ ')' :: rest)
  | 0, _, closes => WellNested.nest nested closes
  | _ + 1, _, ⟨inner', rest', eq, nested', closes⟩ =>
    ⟨'(' :: inner ++ ')' :: inner', rest', by simp [eq], WellNested.nest nested nested', closes⟩

/-- Only brackets count. -/
theorem balancedFrom_brackets (cs : List Char) :
    ∀ depth, balancedFrom depth (brackets cs) = balancedFrom depth cs := by
  induction cs with
  | nil => exact fun _ => rfl
  | cons c cs ih =>
    intro depth
    by_cases opening : c = '('
    · subst opening
      exact ih (depth + 1)
    by_cases closing : c = ')'
    · subst closing
      cases depth with
      | zero => rfl
      | succ depth => exact ih depth
    rw [brackets, List.filter_cons_of_neg (by simp [opening, closing])]
    refine (ih depth).trans ?_
    cases depth <;> simp [balancedFrom, closing]

/-- A well-nested word leaves the depth as it is. -/
theorem balancedFrom_append {w : List Char} (nested : WellNested w) :
    ∀ (depth : Nat) (rest : List Char), balancedFrom depth (w ++ rest) = balancedFrom depth rest := by
  induction nested with
  | nil => exact fun _ _ => rfl
  | @nest inner more _ _ ihInner ihMore =>
    intro depth rest
    calc balancedFrom depth ('(' :: inner ++ ')' :: more ++ rest)
        = balancedFrom (depth + 1) (inner ++ ')' :: (more ++ rest)) := by
          rw [List.cons_append, List.cons_append, balancedFrom, List.append_assoc, List.cons_append]
      _ = balancedFrom depth (more ++ rest) := by rw [ihInner, balancedFrom]
      _ = balancedFrom depth rest := ihMore depth rest

theorem balancedFrom_of_closes : ∀ {depth : Nat} {w : List Char}, Closes depth w →
    balancedFrom depth w = true
  | 0, w, nested => by
    have all := balancedFrom_append nested 0 []
    rwa [List.append_nil] at all
  | depth + 1, _, ⟨inner, rest, rfl, nested, closes⟩ => by
    rw [balancedFrom_append nested, balancedFrom]
    exact balancedFrom_of_closes closes

theorem closes_of_balancedFrom (cs : List Char) :
    ∀ {depth : Nat}, balancedFrom depth cs = true → Closes depth (brackets cs) := by
  induction cs with
  | nil =>
    intro depth balanced
    cases depth with
    | zero => exact .nil
    | succ depth => cases balanced
  | cons c cs ih =>
    intro depth balanced
    by_cases opening : c = '('
    · subst opening
      have inside : balancedFrom (depth + 1) cs = true := balanced
      obtain ⟨inner, rest, eq, nested, closes⟩ := ih inside
      have word : brackets ('(' :: cs) = '(' :: inner ++ ')' :: rest := congrArg ('(' :: ·) eq
      rw [word]
      exact closes.nest nested
    by_cases closing : c = ')'
    · subst closing
      cases depth with
      | zero => cases balanced
      | succ depth => exact ⟨[], brackets cs, rfl, .nil, ih balanced⟩
    rw [brackets, List.filter_cons_of_neg (by simp [opening, closing])]
    refine ih ?_
    cases depth <;> simpa [balancedFrom, opening, closing] using balanced

/-- The scan succeeds if and only if the brackets close the open ones and are well-nested
    besides. -/
theorem balancedFrom_iff (depth : Nat) (cs : List Char) :
    balancedFrom depth cs = true ↔ Closes depth (brackets cs) := by
  refine ⟨closes_of_balancedFrom cs, fun closes => ?_⟩
  rw [← balancedFrom_brackets]
  exact balancedFrom_of_closes closes

/-! ## Zeros -/

/-- No blank is a digit. -/
theorem isDecimal_of_isBlank {c : Char} (blank : Text.isBlank c = true) :
    Text.isDecimal c = false := by
  rw [Bool.eq_false_iff]
  intro decimal
  have digit : Text.decimalRanges.holds c.toNat = true := by
    unfold Text.isDecimal at decimal
    split at decimal
    · have range := Char.isDigit_iff_toNat.mp decimal
      exact (Text.CodePoints.holds_iff _ _).mpr ⟨(0x30, 0x39), by simp [Text.decimalRanges], range⟩
    · exact (Bool.and_eq_true_iff.mp decimal).1
  have apart := Text.CodePoints.holds_eq_false_of_apart Text.words_apart.2.1 digit
  rw [Text.isBlank, apart] at blank
  cases blank

theorem endsNumber_append {gap rest : List Char} (blank : ∀ c ∈ gap, Text.isBlank c = true)
    (ends : EndsNumber rest) : EndsNumber (gap ++ rest) := by
  cases gap with
  | nil => exact ends
  | cons c gap =>
    rintro d ⟨⟩
    have here := blank c (by simp)
    refine ⟨isDecimal_of_isBlank here, ?_⟩
    rintro rfl
    exact absurd here (by decide)

theorem EndsNumber.head?_ne {cs : List Char} (ends : EndsNumber cs) {c : Char}
    (continues : Text.isDecimal c = true ∨ c = '.') : cs.head? ≠ some c := by
  intro here
  obtain ⟨other, point⟩ := ends c here
  rcases continues with digit | rfl
  · rw [digit] at other
    cases other
  · exact point rfl

/-- A run ends at the first character that does not belong to it. -/
theorem dropWhile_run {p : Char → Bool} {run rest : List Char} (inside : ∀ c ∈ run, p c = true)
    (outside : ∀ c ∈ rest.head?, p c = false) : (run ++ rest).dropWhile p = rest := by
  rw [List.dropWhile_append_of_pos inside]
  cases rest with
  | nil => rfl
  | cons c rest => rw [List.dropWhile_cons_of_neg (by simp [outside c rfl])]

theorem dropWhile_zeros {zeros rest : List Char} (all : ∀ c ∈ zeros, c = '0')
    (other : rest.head? ≠ some '0') : (zeros ++ rest).dropWhile (· = '0') = rest := by
  refine dropWhile_run (by simpa using all) fun c hc => ?_
  rw [decide_eq_false_iff_not]
  rintro rfl
  exact other hc

/-- A text begins with its first run. -/
theorem exists_run (p : Char → Bool) (cs : List Char) :
    ∃ run, (∀ c ∈ run, p c = true) ∧ cs = run ++ cs.dropWhile p :=
  ⟨cs.takeWhile p, List.all_eq_true.mp (List.all_takeWhile ..), List.takeWhile_append_dropWhile.symm⟩

/-- What follows a point and zeros, if they are there. -/
def afterFraction : List Char → List Char
  | '.' :: more => more.dropWhile (· = '0')
  | rest => rest

theorem exists_fraction (cs : List Char) : ∃ fraction,
    (fraction = [] ∨ ∃ more, fraction = '.' :: more ∧ ∀ c ∈ more, c = '0') ∧
      cs = fraction ++ afterFraction cs := by
  unfold afterFraction
  split
  · rename_i more
    obtain ⟨zeros, all, split⟩ := exists_run (· = '0') more
    exact ⟨'.' :: zeros, Or.inr ⟨zeros, rfl, by simpa using all⟩, congrArg ('.' :: ·) split⟩
  · exact ⟨[], Or.inl rfl, rfl⟩

theorem afterFraction_append {fraction rest : List Char}
    (decimals : fraction = [] ∨ ∃ more, fraction = '.' :: more ∧ ∀ c ∈ more, c = '0')
    (ends : EndsNumber rest) : afterFraction (fraction ++ rest) = rest := by
  rcases decimals with rfl | ⟨more, rfl, all⟩
  · rw [List.nil_append, afterFraction]
    rintro more rfl
    exact ends.head?_ne (Or.inr rfl) rfl
  · exact dropWhile_zeros all (ends.head?_ne (Or.inl (by decide)))

/-- Whether a number can end here, as it is tested. -/
def endsNumber : List Char → Bool
  | [] => true
  | c :: _ => !Text.isDecimal c && c ≠ '.'

theorem endsNumber_iff (cs : List Char) : endsNumber cs = true ↔ EndsNumber cs := by
  cases cs <;> simp [endsNumber, EndsNumber]

theorem startsWithZero_eq (cs : List Char) : startsWithZero cs =
    ((cs.dropWhile Text.isBlank).head? = some '0' &&
      endsNumber (afterFraction ((cs.dropWhile Text.isBlank).dropWhile (· = '0')))) := rfl

/-- What is taken for a zero. -/
theorem startsWithZero_iff (cs : List Char) : startsWithZero cs = true ↔
    ∃ blanks zeros fraction gap rest, BeginsWithZero blanks zeros fraction gap rest ∧
      cs = blanks ++ (zeros ++ (fraction ++ (gap ++ rest))) := by
  rw [startsWithZero_eq, Bool.and_eq_true, decide_eq_true_eq, endsNumber_iff]
  constructor
  · rintro ⟨zero, ends⟩
    obtain ⟨blanks, before, split⟩ := exists_run Text.isBlank cs
    obtain ⟨zeros, whole, numeral⟩ := exists_run (· = '0') (cs.dropWhile Text.isBlank)
    obtain ⟨fraction, decimals, number⟩ :=
      exists_fraction ((cs.dropWhile Text.isBlank).dropWhile (· = '0'))
    have filled : zeros ≠ [] := by
      rintro rfl
      have outside := List.head?_dropWhile_not (· = '0') (cs.dropWhile Text.isBlank)
      rw [List.nil_append] at numeral
      rw [← numeral, zero] at outside
      simp at outside
    refine ⟨blanks, zeros, fraction, [], _,
      ⟨before, filled, by simpa using whole, decimals, by simp, ends⟩, ?_⟩
    rw [List.nil_append, ← number, ← numeral, ← split]
  · rintro ⟨blanks, zeros, fraction, gap, rest, zero, rfl⟩
    have ends : EndsNumber (gap ++ rest) := endsNumber_append zero.behind zero.ends
    obtain ⟨first, more, split⟩ := List.exists_cons_of_ne_nil zero.filled
    have first_eq : first = '0' := zero.whole first (by simp [split])
    have numeral : (blanks ++ (zeros ++ (fraction ++ (gap ++ rest)))).dropWhile Text.isBlank =
        zeros ++ (fraction ++ (gap ++ rest)) := by
      refine dropWhile_run zero.before fun c hc => ?_
      rw [split, first_eq] at hc
      cases hc
      decide
    have number : (zeros ++ (fraction ++ (gap ++ rest))).dropWhile (· = '0') =
        fraction ++ (gap ++ rest) := by
      refine dropWhile_zeros zero.whole ?_
      rcases zero.decimals with rfl | ⟨more, rfl, -⟩
      · exact ends.head?_ne (Or.inl (by decide))
      · simp
    rw [numeral, number, afterFraction_append zero.decimals ends, split, first_eq]
    exact ⟨rfl, ends⟩

/-! ## Scans -/

/-- A scan for a character before a text of some kind finds the places where they stand. -/
theorem scan_iff (scan p : List Char → Bool) {a : Char} (stop : scan [] = false)
    (step : ∀ c cs, scan (c :: cs) = ((c = a && p cs) || scan cs)) (cs : List Char) :
    scan cs = true ↔ ∃ before rest, cs = before ++ a :: rest ∧ p rest = true := by
  induction cs with
  | nil => simp [stop]
  | cons c cs ih =>
    rw [step, Bool.or_eq_true, Bool.and_eq_true, decide_eq_true_eq, ih]
    constructor
    · rintro (⟨rfl, here⟩ | ⟨before, rest, rfl, later⟩)
      · exact ⟨[], cs, rfl, here⟩
      · exact ⟨c :: before, rest, rfl, later⟩
    · rintro ⟨before, rest, eq, found⟩
      cases before with
      | nil =>
        cases eq
        exact Or.inl ⟨rfl, found⟩
      | cons d before =>
        cases eq
        exact Or.inr ⟨before, rest, rfl, found⟩

theorem dividesByZero_iff (cs : List Char) : dividesByZero cs = true ↔ DividesByZero cs := by
  rw [scan_iff dividesByZero startsWithZero rfl fun _ _ => rfl]
  constructor
  · rintro ⟨before, after, rfl, found⟩
    obtain ⟨blanks, zeros, fraction, gap, rest, zero, rfl⟩ := (startsWithZero_iff after).mp found
    exact ⟨before, blanks, zeros, fraction, gap, rest, zero, rfl⟩
  · rintro ⟨before, blanks, zeros, fraction, gap, rest, zero, rfl⟩
    exact ⟨before, _, rfl, (startsWithZero_iff _).mpr ⟨_, _, _, _, _, zero, rfl⟩⟩

theorem hasEmptyPlaceholder_iff (cs : List Char) :
    hasEmptyPlaceholder cs = true ↔ HasEmptyPlaceholder cs := by
  rw [scan_iff hasEmptyPlaceholder (fun rest => (rest.dropWhile Text.isBlank).head? = some '}') rfl
    fun _ _ => rfl]
  constructor
  · rintro ⟨before, after, rfl, closed⟩
    obtain ⟨blanks, blank, split⟩ := exists_run Text.isBlank after
    obtain ⟨rest, closing⟩ := List.head?_eq_some_iff.mp (of_decide_eq_true closed)
    rw [closing] at split
    exact ⟨before, blanks, rest, blank, by rw [split]⟩
  · rintro ⟨before, blanks, rest, blank, rfl⟩
    refine ⟨before, _, rfl, decide_eq_true ?_⟩
    rw [dropWhile_run blank]
    · rfl
    · rintro c ⟨⟩
      decide

/-! ## Reports -/

/-- The messages about an expression. -/
def problemMessages (expression : String) : List String :=
  (expressionProblems expression).map ExpressionProblem.message

/-- What is reported of an expression: brackets that are not well-nested, a division by zero, and an
    empty placeholder, exactly if they are there, each at most once and in this order. -/
theorem expressionProblems_exact (expression : String) :
    ("unbalanced parentheses" ∈ problemMessages expression ↔
      ¬ WellNested (brackets expression.toList)) ∧
    ("division by zero" ∈ problemMessages expression ↔ DividesByZero expression.toList) ∧
    ("empty \x7b\x7d placeholder" ∈ problemMessages expression ↔
      HasEmptyPlaceholder expression.toList) ∧
    (problemMessages expression).Sublist
      ["unbalanced parentheses", "division by zero", "empty \x7b\x7d placeholder"] := by
  set cs := expression.toList
  have nested : balancedFrom 0 cs = true ↔ WellNested (brackets cs) := balancedFrom_iff 0 cs
  rw [← nested, ← dividesByZero_iff, ← hasEmptyPlaceholder_iff]
  have eq : problemMessages expression =
      (if balancedFrom 0 cs then [] else ["unbalanced parentheses"]) ++
      (if dividesByZero cs then ["division by zero"] else []) ++
      (if hasEmptyPlaceholder cs then ["empty \x7b\x7d placeholder"] else []) := by
    simp only [problemMessages, expressionProblems, List.map_append, apply_ite (List.map _)]
    rfl
  rw [eq]
  generalize balancedFrom 0 cs = balanced, dividesByZero cs = divides,
    hasEmptyPlaceholder cs = empty
  cases balanced <;> cases divides <;> cases empty <;> decide

/-- Brackets in the wrong order, and texts that begin like a zero. -/
example : [")a(", "a/0.5", "a/ 00. b", "a/0.0.", "a/10"].map expressionProblems =
    [[.unbalanced], [], [.divisionByZero], [], []] := by
  decide

end Rollup.Check

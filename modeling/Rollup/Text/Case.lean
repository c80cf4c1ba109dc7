import Rollup.Text.CaseMap
import Rollup.Text.Cased

/-!
# Upper case, lower case and case folding

Upper-casing works character by character; one character may become several. Lower-casing differs
in one place: a capital sigma at the end of a word becomes the final small sigma. Case folding is
the character-to-character map that case-insensitive matching uses.
-/

namespace Rollup.Text

/-- The first run that holds `n` moves it; a code point outside all runs stays. -/
def moveBy (runs : List CaseRun) (n : Nat) : Nat :=
  (runs.findSome? (·.image? n)).getD n

/-! ## Upper case -/

/-- The upper-case form of one character. -/
def upperChar (c : Char) : List Char :=
  if c.toNat < 0x80 then [c.toUpper]
  else match upperExpansions.lookup c.toNat with
    | some codes => codes.map Char.ofNat
    | none => [Char.ofNat (moveBy upperRuns c.toNat)]

/-- The upper-case form of a text. -/
def upper (s : String) : String :=
  String.ofList (s.toList.flatMap upperChar)

@[simp] theorem toList_upper (s : String) : (upper s).toList = s.toList.flatMap upperChar := by
  simp [upper]

/-! ## Lower case -/

/-- The lower-case form of one character, wherever it stands. -/
def lowerChar (c : Char) : List Char :=
  if c.toNat < 0x80 then [c.toLower]
  else match lowerExpansions.lookup c.toNat with
    | some codes => codes.map Char.ofNat
    | none => [Char.ofNat (moveBy lowerRuns c.toNat)]

/-- Whether the first character that is not case-ignorable exists and is cased. -/
def meetsCased (cs : List Char) : Bool :=
  match cs.dropWhile (caseIgnorableRanges.holds ·.toNat) with
  | [] => false
  | c :: _ => casedRanges.holds c.toNat

/-- Lower-cases a text whose already passed characters are `before`, nearest first. A capital
    sigma after a cased character and before none takes its final form. -/
def lowerAfter : (before : List Char) → List Char → List Char
  | _, [] => []
  | before, c :: rest =>
    let lowered :=
      if c = 'Σ' then (if meetsCased before && !meetsCased rest then ['ς'] else ['σ'])
      else lowerChar c
    lowered ++ lowerAfter (c :: before) rest

/-- The lower-case form of a text. -/
def lower (s : String) : String :=
  String.ofList (lowerAfter [] s.toList)

/-! ## Folding -/

/-- The representative of `c` under simple case folding. -/
def foldChar (c : Char) : Char :=
  if c.toNat < 0x80 then c.toLower else Char.ofNat (moveBy foldRuns c.toNat)

/-- All characters that fold to the same representative as `c`. -/
def caseVariants (c : Char) : List Char :=
  let f := foldChar c
  let ascii := if f.toNat < 0x80 then [f.toUpper] else []
  f :: ascii ++ (foldRuns.filterMap (·.preimage? f.toNat)).map Char.ofNat

/-- The code points of a run. -/
def CaseRun.members (r : CaseRun) : List Nat :=
  (List.range ((r.last - r.first) / r.step + 1)).map fun i => r.first + i * r.step

/-- All characters that have a case variant besides themselves. -/
def caseSensitive : List Char :=
  let letters := (List.range 26).flatMap fun i => [0x41 + i, 0x61 + i]
  let others := foldRuns.flatMap fun r => r.members ++ r.members.filterMap r.image?
  (letters ++ others).map Char.ofNat

/-- What follows `word` at the start of `cs`, up to case folding. -/
def afterFolded? : (word : List Char) → List Char → Option (List Char)
  | [], cs => some cs
  | _ :: _, [] => none
  | w :: word, c :: cs => if foldChar c = foldChar w then afterFolded? word cs else none

/-- Equality up to the case of ASCII letters. -/
def equalIgnoringAsciiCase (a b : String) : Bool :=
  a.toList.map Char.toLower == b.toList.map Char.toLower

end Rollup.Text

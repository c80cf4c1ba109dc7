/-!
# Runs, joining and splitting

Cutting a text into its maximal runs of one character class, joining texts with a separator
between them, and splitting at a separator character.
-/

namespace Rollup.Text

/-- The maximal runs of characters of `cs` that satisfy `keep`, in order; `run` is the one being
    read, last character first. -/
def runsFrom (keep : Char → Bool) : (run : List Char) → List Char → List (List Char)
  | [], [] => []
  | run@(_ :: _), [] => [run.reverse]
  | [], c :: rest => if keep c then runsFrom keep [c] rest else runsFrom keep [] rest
  | run@(_ :: _), c :: rest =>
    if keep c then runsFrom keep (c :: run) rest else run.reverse :: runsFrom keep [] rest

/-- The maximal runs of characters of `cs` that satisfy `keep`. -/
def runs (keep : Char → Bool) (cs : List Char) : List (List Char) :=
  runsFrom keep [] cs

/-- `parts` in order with `separator` between neighbours. -/
def join (separator : String) (parts : List String) : String :=
  String.ofList (separator.toList.intercalate (parts.map String.toList))

@[simp] theorem toList_join (separator : String) (parts : List String) :
    (join separator parts).toList = separator.toList.intercalate (parts.map String.toList) := by
  simp [join]

/-- The parts of `s` between the occurrences of `separator`, empty parts included. -/
def split (separator : Char) (s : String) : List String :=
  (s.toList.splitOn separator).map String.ofList

/-- The parts of `s` before and after the first `separator`, if there is one. -/
def splitOnce? (separator : Char) (s : String) : Option (String × String) :=
  match s.toList.dropWhile (· ≠ separator) with
  | [] => none
  | _ :: rest => some (String.ofList (s.toList.takeWhile (· ≠ separator)), String.ofList rest)

end Rollup.Text

import Rollup.Pattern.Class
import Rollup.Pattern.Size

/-!
# Reading patterns

The notation of patterns: `^ $ .`, alternatives, groups, bracketed character classes, escapes, the
quantifiers `* + ?` and counts in braces, and the setting `(?i)`, which ignores letter case up to
the end of its group. A text that is no pattern is refused, and so is a pattern whose notation nests
too deeply or whose automata are too large.
-/

namespace Rollup.Pattern

/-! ## Quantifiers -/

/-- A number of repetitions: the least one, and how many more are allowed. -/
structure Count where
  least : Nat
  more : Option Nat
  deriving DecidableEq, Repr

/-- The bound on the numbers in a count. -/
def countLimit : Nat := 4294967296

/-- A decimal number with blanks around it. -/
def countNumber? (cs : List Char) : Option Nat :=
  let digits := Text.trimChars cs
  if digits ≠ [] ∧ digits.all Char.isDigit then
    let n := digits.foldl (fun n c => 10 * n + (c.toNat - '0'.toNat)) 0
    if n < countLimit then some n else none
  else none

/-- The count between braces: `n`, `n,` or `n,m`. -/
def countOf? (body : List Char) : Option Count :=
  match body.splitOn ',' with
  | [n] => (countNumber? n).map fun n => ⟨n, some 0⟩
  | [n, []] => (countNumber? n).map fun n => ⟨n, none⟩
  | [n, m] => do
    let n ← countNumber? n
    let m ← countNumber? m
    if n ≤ m then return ⟨n, some (m - n)⟩ else none
  | _ => none

/-- The quantifier at the start of a text: nothing if there is none, and nothing inside if it is
    malformed. -/
def quantifier? : List Char → Option (Option Count × List Char)
  | '*' :: rest => some (some ⟨0, none⟩, rest)
  | '+' :: rest => some (some ⟨1, none⟩, rest)
  | '?' :: rest => some (some ⟨0, some 1⟩, rest)
  | '{' :: rest =>
    match rest.dropWhile (· ≠ '}') with
    | [] => some (none, rest)
    | _ :: after => some (countOf? (rest.takeWhile (· ≠ '}')), after)
  | _ => none

/-- What follows the mark of reluctance; it does not change what a pattern matches. -/
def afterReluctance : List Char → List Char
  | '?' :: rest => rest
  | cs => cs

/-! ## Patterns -/

/-- A pattern with the depth to which its notation nests. -/
structure Nested where
  pattern : Pattern
  depth : Nat := 0
  deriving Repr

/-- The greatest depth to which the notation of a pattern may nest. -/
def depthLimit : Nat := 250

namespace Nested

/-- The greatest depth of several parts. -/
def deepest (ps : List Nested) : Nat :=
  ps.foldl (fun n p => max n p.depth) 0

/-- Parts one after the other. -/
def sequence (ps : List Nested) : Nested :=
  { pattern := ps.foldl (fun p q => .seq p q.pattern) .empty
    depth := deepest ps + if 2 ≤ ps.length then 1 else 0 }

end Nested

/-- A pattern being read: the finished alternatives, the parts of the last one, and whether a
    quantifier may follow. -/
structure Draft where
  ignoreCase : Bool
  finished : Option Nested := none
  parts : List Nested := []
  repeatable : Bool := false
  deriving Repr

namespace Draft

/-- Adds a part to the last alternative. -/
def add (d : Draft) (p : Nested) : Draft :=
  { d with parts := d.parts ++ [p], repeatable := true }

/-- Adds one character of a set. -/
def addSet (d : Draft) (s : Text.CharSet) (depth : Nat := 0) : Draft :=
  d.add ⟨.set d.ignoreCase s, depth⟩

/-- Repeats the last part. -/
def repeatLast? (d : Draft) (count : Count) : Option Draft :=
  if d.repeatable then
    d.parts.getLast?.map fun p =>
      { d with
        parts := d.parts.dropLast ++ [⟨.times p.pattern count.least count.more, p.depth + 1⟩] }
  else none

/-- The finished alternatives and the last one, without counting that they are alternatives. -/
def joined (d : Draft) : Nested :=
  let last := Nested.sequence d.parts
  match d.finished with
  | none => last
  | some p => ⟨.alt p.pattern last.pattern, max p.depth last.depth⟩

/-- All alternatives as one pattern. -/
def pattern (d : Draft) : Nested :=
  { d.joined with depth := d.joined.depth + if d.finished.isSome then 1 else 0 }

/-- Starts a new alternative. -/
def nextAlternative (d : Draft) : Draft :=
  { ignoreCase := d.ignoreCase, finished := some d.joined }

/-- Sets whether letter case counts from here on; the setting itself cannot be repeated. -/
def setIgnoreCase (d : Draft) (b : Bool) : Draft :=
  { d with ignoreCase := b, parts := d.parts ++ [⟨.empty, 0⟩], repeatable := false }

end Draft

/-- How a group is opened. -/
structure Opening where
  ignoreCase : Bool
  /-- Whether what the group matches is remembered. -/
  remembered : Bool
  deriving DecidableEq, Repr

/-- The opening of a group after its parenthesis, and what follows it. -/
def opening? (ignoreCase : Bool) : List Char → Option (Opening × List Char)
  | '?' :: ':' :: rest => some (⟨ignoreCase, false⟩, rest)
  | '?' :: 'i' :: ':' :: rest => some (⟨true, false⟩, rest)
  | '?' :: _ => none
  | rest => some (⟨ignoreCase, true⟩, rest)

/-- A pattern as a group. -/
def Opening.close (o : Opening) (p : Nested) : Nested :=
  ⟨if o.remembered then .group p.pattern else p.pattern, p.depth + 1⟩

/-- Reads up to the end of the text or of the group; `depth` counts the open groups, and `fuel`
    bounds the number of elements. -/
def readDraft? : (fuel depth : Nat) → Draft → List Char → Option (Nested × List Char)
  | _, 0, d, [] => some (d.pattern, [])
  | _, _ + 1, _, [] => none
  | 0, _, _, _ => none
  | fuel + 1, depth, d, c :: rest =>
    match quantifier? (c :: rest) with
    | some (none, _) => none
    | some (some count, after) =>
      match d.repeatLast? count with
      | none => none
      | some d => readDraft? fuel depth d (afterReluctance after)
    | none =>
      match c, rest with
      | ')', _ => if depth = 0 then none else some (d.pattern, rest)
      | '|', _ => readDraft? fuel depth d.nextAlternative rest
      | '(', '?' :: 'i' :: ')' :: rest => readDraft? fuel depth (d.setIgnoreCase true) rest
      | '(', '?' :: '-' :: 'i' :: ')' :: rest => readDraft? fuel depth (d.setIgnoreCase false) rest
      | '(', _ =>
        match opening? d.ignoreCase rest with
        | none => none
        | some (o, rest) =>
          match readDraft? fuel (depth + 1) { ignoreCase := o.ignoreCase } rest with
          | none => none
          | some (p, rest) => readDraft? fuel depth (d.add (o.close p)) rest
      | '[', _ =>
        match readClass? rest with
        | none => none
        | some (s, rest) => readDraft? fuel depth (d.addSet s.set s.depth) rest
      | '.', _ => readDraft? fuel depth (d.addSet .anyInLine) rest
      | '^', _ => readDraft? fuel depth (d.add ⟨.start, 0⟩) rest
      | '$', _ => readDraft? fuel depth (d.add ⟨.stop, 0⟩) rest
      | '\\', 'b' :: rest => readDraft? fuel depth (d.add ⟨.edge true, 0⟩) rest
      | '\\', 'B' :: rest => readDraft? fuel depth (d.add ⟨.edge false, 0⟩) rest
      | '\\', 'A' :: rest => readDraft? fuel depth (d.add ⟨.start, 0⟩) rest
      | '\\', 'z' :: rest => readDraft? fuel depth (d.add ⟨.stop, 0⟩) rest
      | '\\', e :: rest =>
        match (escapedClass? e).or ((escapedChar? e).map Text.CharSet.single) with
        | none => none
        | some s => readDraft? fuel depth (d.addSet s) rest
      | '\\', [] => none
      | c, rest => readDraft? fuel depth (d.addSet (.single c)) rest

/-- The pattern that a text writes, if it writes one. -/
def read? (text : String) : Option Pattern :=
  match readDraft? (text.toList.length + 1) 0 { ignoreCase := false } text.toList with
  | some (p, _) => if p.depth ≤ depthLimit && p.pattern.fits then some p.pattern else none
  | none => none

end Rollup.Pattern

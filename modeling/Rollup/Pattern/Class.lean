import Rollup.Pattern

/-!
# Reading character classes

Escapes, and the notation of classes in brackets: characters, ranges, named classes, classes within
classes, and the operators `&&` for what two sides share, `--` for what only the left side has and
`~~` for what exactly one side has. The operators bind weaker than standing next to each other and
group to the left.
-/

namespace Rollup.Pattern

/-! ## Escapes -/

/-- The class that an escaped letter names. -/
def escapedClass? : Char → Option Text.CharSet
  | 'w' => some .word
  | 'd' => some .digit
  | 's' => some .blank
  | 'W' => some (.complement .word)
  | 'D' => some (.complement .digit)
  | 'S' => some (.complement .blank)
  | _ => none

/-- The character that an escape stands for: a control character, or a character that is neither a
    letter nor a digit nor an angle bracket itself. -/
def escapedChar? : Char → Option Char
  | 'n' => some '\n'
  | 't' => some '\t'
  | 'r' => some '\r'
  | 'f' => some '\x0c'
  | 'v' => some '\x0b'
  | 'a' => some '\x07'
  | c => if c.toNat < 0x80 && !c.isAlphanum && c ≠ '<' && c ≠ '>' then some c else none

/-! ## Named classes -/

/-- The union of ranges of characters. -/
def rangesSet (rs : List (Char × Char)) : Text.CharSet :=
  rs.foldl (fun s r => .union s (.range r.1 r.2)) .empty

/-- The ranges of the classes that have a name. -/
def namedRanges? : String → Option (List (Char × Char))
  | "alnum" => some [('0', '9'), ('A', 'Z'), ('a', 'z')]
  | "alpha" => some [('A', 'Z'), ('a', 'z')]
  | "ascii" => some [('\x00', '\x7f')]
  | "blank" => some [('\t', '\t'), (' ', ' ')]
  | "cntrl" => some [('\x00', '\x1f'), ('\x7f', '\x7f')]
  | "digit" => some [('0', '9')]
  | "graph" => some [('!', '~')]
  | "lower" => some [('a', 'z')]
  | "print" => some [(' ', '~')]
  | "punct" => some [('!', '/'), (':', '@'), ('[', '\x60'), ('\x7b', '~')]
  | "space" => some [('\t', '\r'), (' ', ' ')]
  | "upper" => some [('A', 'Z')]
  | "word" => some [('0', '9'), ('A', 'Z'), ('_', '_'), ('a', 'z')]
  | "xdigit" => some [('0', '9'), ('A', 'F'), ('a', 'f')]
  | _ => none

/-- The named class that is written after an opening bracket, as in `[:alpha:]` or `[:^alpha:]`,
    and what follows it. -/
def namedClass? : List Char → Option (Text.CharSet × List Char)
  | ':' :: rest =>
    let (negated, rest) := match rest with
      | '^' :: rest => (true, rest)
      | rest => (false, rest)
    match rest.dropWhile (· ≠ ':') with
    | ':' :: ']' :: after =>
      (namedRanges? (String.ofList (rest.takeWhile (· ≠ ':')))).map fun rs =>
        (if negated then .complement (rangesSet rs) else rangesSet rs, after)
    | _ => none
  | _ => none

/-! ## Members -/

/-- A set with the depth to which its notation nests. -/
structure NestedSet where
  set : Text.CharSet
  depth : Nat := 0
  deriving Repr

/-- A member of a class: a whole class, or a character that can start a range. -/
inductive ClassItem where
  | whole (s : Text.CharSet)
  | char (c : Char)
  deriving DecidableEq, Repr

/-- The member at the start of a class body, and what follows it. -/
def classItem? : List Char → Option (ClassItem × List Char)
  | [] => none
  | '\\' :: c :: rest =>
    match escapedClass? c with
    | some s => some (.whole s, rest)
    | none => (escapedChar? c).map fun c => (.char c, rest)
  | ['\\'] => none
  | c :: rest => some (.char c, rest)

/-- The set of one member without a range. -/
def ClassItem.set : ClassItem → Text.CharSet
  | whole s => s
  | char c => .single c

/-- The set of a member, which may start a range, and what follows it. A hyphen in front of a
    closing bracket or of another hyphen makes no range, and only characters bound one. -/
def classRange? (cs : List Char) : Option (NestedSet × List Char) := do
  let (item, rest) ← classItem? cs
  match rest with
  | [] => none
  | '-' :: ']' :: _ | '-' :: '-' :: _ => return (⟨item.set, 0⟩, rest)
  | '-' :: rest =>
    match item, ← classItem? rest with
    | .char lo, (.char hi, rest) => if lo ≤ hi then return (⟨.range lo hi, 0⟩, rest) else none
    | _, _ => none
  | rest => return (⟨item.set, 0⟩, rest)

/-! ## Operators -/

/-- An operator on sets. -/
inductive SetOperator where
  | intersection
  | difference
  | symmetricDifference
  deriving DecidableEq, Repr

/-- The operator at the start of a text, and what follows it. -/
def setOperator? : List Char → Option (SetOperator × List Char)
  | '&' :: '&' :: rest => some (.intersection, rest)
  | '-' :: '-' :: rest => some (.difference, rest)
  | '~' :: '~' :: rest => some (.symmetricDifference, rest)
  | _ => none

/-- What two sets share. -/
def intersect (s t : Text.CharSet) : Text.CharSet :=
  .complement (.union (.complement s) (.complement t))

/-- Applies an operator. -/
def SetOperator.apply (s t : Text.CharSet) : SetOperator → Text.CharSet
  | intersection => intersect s t
  | difference => intersect s (.complement t)
  | symmetricDifference => .union (intersect s (.complement t)) (intersect t (.complement s))

/-! ## Classes -/

/-- A class being read: what stands left of the last operator, and the members after it. -/
structure ClassDraft where
  left : Option (NestedSet × SetOperator) := none
  members : List NestedSet := []
  deriving Repr

namespace ClassDraft

/-- Adds a member. -/
def add (d : ClassDraft) (s : NestedSet) : ClassDraft :=
  { d with members := d.members ++ [s] }

/-- The members after the last operator as one set. -/
def side (d : ClassDraft) : NestedSet :=
  match d.members with
  | [] => ⟨.empty, 0⟩
  | [s] => s
  | ss => ⟨ss.foldl (fun s t => .union s t.set) .empty, ss.foldl (fun n s => max n s.depth) 0 + 1⟩

/-- Everything read so far as one set. -/
def whole (d : ClassDraft) : NestedSet :=
  match d.left with
  | none => d.side
  | some (l, op) => ⟨op.apply l.set d.side.set, max l.depth d.side.depth + 1⟩

end ClassDraft

/-- The start of a class after its opening bracket: whether it is negated, and the hyphens or the
    closing bracket that are members right at its start. -/
def classStart (cs : List Char) : Bool × ClassDraft × List Char :=
  let (negated, cs) := match cs with
    | '^' :: rest => (true, rest)
    | cs => (false, cs)
  match cs with
  | ']' :: rest => (negated, { members := [⟨.single ']', 0⟩] }, rest)
  | cs =>
    let hyphens := cs.takeWhile (· = '-')
    (negated, { members := hyphens.map fun c => ⟨.single c, 0⟩ }, cs.dropWhile (· = '-'))

/-- The rest of a class up to its closing bracket; `fuel` bounds the number of its elements. -/
def classRest? : (fuel : Nat) → (negated : Bool) → ClassDraft → List Char →
    Option (NestedSet × List Char)
  | 0, _, _, _ => none
  | _, _, _, [] => none
  | fuel + 1, negated, d, c :: rest =>
    if c = ']' then
      some (⟨if negated then .complement d.whole.set else d.whole.set, d.whole.depth + 1⟩, rest)
    else if c = '[' then
      match namedClass? rest with
      | some (s, rest) => classRest? fuel negated (d.add ⟨s, 0⟩) rest
      | none =>
        let (innerNegated, inner, rest) := classStart rest
        match classRest? fuel innerNegated inner rest with
        | none => none
        | some (s, rest) => classRest? fuel negated (d.add s) rest
    else match setOperator? (c :: rest) with
      | some (op, rest) => classRest? fuel negated { left := some (d.whole, op) } rest
      | none =>
        match classRange? (c :: rest) with
        | none => none
        | some (s, rest) => classRest? fuel negated (d.add s) rest

/-- A class after its opening bracket, and what follows it. -/
def readClass? (cs : List Char) : Option (NestedSet × List Char) :=
  let (negated, d, rest) := classStart cs
  classRest? (rest.length + 1) negated d rest

end Rollup.Pattern

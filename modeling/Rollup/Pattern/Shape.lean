import Rollup.Pattern

/-!
# Shapes of patterns

The shape of a pattern is the pattern in a simplified form, from which the size of its automaton is
read off: neighbouring characters are joined to fixed texts, nested sequences and alternatives are
flattened, alternatives that are single characters or sets become one set, and what all
alternatives start with is moved in front of them.
-/

namespace Rollup.Pattern

/-- A pattern in simplified form. -/
inductive Shape where
  | empty
  /-- A fixed text, as octets. -/
  | octets (os : List UInt8)
  /-- One character of a set, which is in normal form. -/
  | set (ranges : Text.CodePoints)
  /-- The start of the text. -/
  | start
  /-- The end of the text. -/
  | stop
  /-- An edge of a word, or with `false` a place that is none. -/
  | edge (expected : Bool)
  | group (s : Shape)
  /-- At least `least` and at most `most` times. -/
  | times (s : Shape) (least : Nat) (most : Option Nat)
  | seq (ss : List Shape)
  | alt (ss : List Shape)
  deriving Repr, Inhabited

namespace Shape

/-! ## Lengths -/

mutual

/-- The least number of octets that a match takes; nothing if there may be no match. -/
def minLength : Shape → Option Nat
  | empty | start | stop | edge _ => some 0
  | octets os => some os.length
  | set ranges => ranges.head?.map fun r => (Char.ofNat r.1).utf8Size
  | group s => s.minLength
  | times s least _ => s.minLength.map (· * least)
  | seq ss => minLengthAll ss
  | alt ss => minLengthAny ss

/-- The least number of octets of a sequence. -/
def minLengthAll : List Shape → Option Nat
  | [] => some 0
  | s :: rest => do return (← s.minLength) + (← minLengthAll rest)

/-- The least number of octets of one of several alternatives. -/
def minLengthAny : List Shape → Option Nat
  | [] => none
  | [s] => s.minLength
  | s :: rest => do return min (← s.minLength) (← minLengthAny rest)

end

mutual

/-- Whether every match is empty. -/
def isHollow : Shape → Bool
  | empty | start | stop | edge _ => true
  | octets os => os.isEmpty
  | set _ => false
  | group s => s.isHollow
  | times s _ most => s.isHollow || most == some 0
  | seq ss => areHollow ss
  | alt ss => areHollow ss

/-- Whether every match of each of several shapes is empty. -/
def areHollow : List Shape → Bool
  | [] => true
  | s :: rest => s.isHollow && areHollow rest

end

/-! ## Anchors -/

mutual

/-- Whether every match begins at the start of the text. -/
def startsAtStart : Shape → Bool
  | start => true
  | group s => s.startsAtStart
  | times s least _ => least ≠ 0 && s.startsAtStart
  | seq ss => someStartsAtStart ss
  | alt ss => allStartAtStart ss
  | empty | octets _ | set _ | stop | edge _ => false

/-- Whether a sequence begins at the start of the text: one of its parts does, and all before it
    are hollow. -/
def someStartsAtStart : List Shape → Bool
  | [] => false
  | s :: rest => s.startsAtStart || (s.isHollow && someStartsAtStart rest)

/-- Whether each of several alternatives begins at the start of the text. -/
def allStartAtStart : List Shape → Bool
  | [] => true
  | s :: rest => s.startsAtStart && allStartAtStart rest

end

mutual

/-- The shape that matches the same texts backwards. -/
def mirrored : Shape → Shape
  | empty => empty
  | octets os => octets os.reverse
  | set ranges => set ranges
  | start => stop
  | stop => start
  | edge expected => edge expected
  | group s => group s.mirrored
  | times s least most => times s.mirrored least most
  | seq ss => seq (mirroredAll ss).reverse
  | alt ss => alt (mirroredAll ss)

/-- Mirrors each of several shapes. -/
def mirroredAll : List Shape → List Shape
  | [] => []
  | s :: rest => s.mirrored :: mirroredAll rest

end

/-! ## Equality -/

mutual

/-- Whether two shapes are the same. Groups are told apart by their place in the pattern, so no
    two of them are the same. -/
def same : Shape → Shape → Bool
  | empty, empty | start, start | stop, stop => true
  | octets a, octets b => a == b
  | set a, set b => a == b
  | edge a, edge b => a == b
  | times s a b, times t c d => s.same t && a == c && b == d
  | seq ss, seq ts => sameAll ss ts
  | alt ss, alt ts => sameAll ss ts
  | _, _ => false

/-- Whether two lists of shapes are the same. -/
def sameAll : List Shape → List Shape → Bool
  | [], [] => true
  | s :: ss, t :: ts => s.same t && sameAll ss ts
  | _, _ => false

end

/-! ## Making shapes -/

/-- The shape of one character of a set; a set of one character is a fixed text. -/
def ofSet : Text.CodePoints → Shape
  | [(lo, hi)] =>
    if lo = hi then octets (String.singleton (Char.ofNat lo)).toUTF8.toList else set [(lo, hi)]
  | ranges => set ranges

/-- The shape of a repetition. What is hollow need not be repeated. -/
def repeated (s : Shape) (least : Nat) (most : Option Nat) : Shape :=
  let least := if s.isHollow then min least 1 else least
  let most := if s.isHollow then some (min (most.getD 1) 1) else most
  if most = some 0 then empty
  else if least = 1 ∧ most = some 1 then s
  else times s least most

/-- The parts of a sequence. -/
def parts : Shape → List Shape
  | empty => []
  | seq ss => ss
  | s => [s]

/-- Puts a part in front of a sequence; two fixed texts become one. -/
def consPart : Shape → List Shape → List Shape
  | octets a, octets b :: rest => octets (a ++ b) :: rest
  | s, rest => s :: rest

/-- The shape of a sequence. -/
def sequence (ss : List Shape) : Shape :=
  match (ss.flatMap parts).foldr consPart [] with
  | [] => empty
  | [s] => s
  | parts => seq parts

/-- The alternatives of a shape. -/
def alternatives : Shape → List Shape
  | alt ss => ss
  | s => [s]

/-- The character that is the whole of a fixed text. -/
def character? : Shape → Option Char
  | octets os =>
    match (String.fromUTF8? (ByteArray.mk os.toArray)).map String.toList with
    | some [c] => some c
    | _ => none
  | _ => none

/-- The set of a shape that is one. -/
def ranges? : Shape → Option Text.CodePoints
  | set ranges => some ranges
  | _ => none

/-- Alternatives as one set, if all are single characters or all are sets. -/
def joined? (ss : List Shape) : Option Shape :=
  match ss.mapM character? with
  | some cs => some (ofSet (Text.CodePoints.normal (cs.map fun c => (c.toNat, c.toNat))))
  | none => (ss.mapM ranges?).map fun rs => ofSet (Text.CodePoints.normal rs.flatten)

/-- The parts that two sequences have in common at their start. -/
def commonParts : List Shape → List Shape → List Shape
  | s :: ss, t :: ts => if s.same t then s :: commonParts ss ts else []
  | _, _ => []

/-- The parts of a shape that is a sequence. -/
def seqParts? : Shape → Option (List Shape)
  | seq ss => some ss
  | _ => none

/-- What all alternatives start with, and what remains of each, if they start with something in
    common and all are sequences. -/
def factored? (ss : List Shape) : Option (List Shape × List Shape) :=
  match ss.mapM seqParts? with
  | some (first :: rest) =>
    match rest.foldl commonParts first with
    | [] => none
    | common => some (common, (first :: rest).map fun ps => sequence (ps.drop common.length))
  | _ => none

/-- The shape of alternatives; `fuel` bounds how often a common start is moved out. -/
def alternationWithin : (fuel : Nat) → List Shape → Shape
  | fuel, ss =>
    match ss.flatMap alternatives with
    | [] => set []
    | [s] => s
    | ss =>
      match joined? ss with
      | some s => s
      | none =>
        match fuel, factored? ss with
        | fuel + 1, some (common, rests) => sequence (common ++ [alternationWithin fuel rests])
        | _, _ => alt ss

mutual

/-- The number of parts of a shape at all depths. -/
def weight : Shape → Nat
  | group s | times s _ _ => s.weight + 1
  | seq ss | alt ss => weightAll ss + 1
  | empty | octets _ | set _ | start | stop | edge _ => 1

/-- The number of parts of several shapes. -/
def weightAll : List Shape → Nat
  | [] => 0
  | s :: rest => s.weight + weightAll rest

end

/-- The shape of alternatives. -/
def alternation (ss : List Shape) : Shape :=
  alternationWithin (weightAll ss) ss

end Shape

/-! ## The shape of a pattern -/

/-- The shapes of the alternatives of a pattern. -/
def branches : Pattern → List Shape
  | empty => [.empty]
  | set ignoreCase s => [.ofSet (s.ranges ignoreCase)]
  | start => [.start]
  | stop => [.stop]
  | edge expected => [.edge expected]
  | group p => [.group (.alternation p.branches)]
  | seq p q => [.sequence [.alternation p.branches, .alternation q.branches]]
  | alt p q => p.branches ++ [.alternation q.branches]
  | times p least more =>
    [.repeated (.alternation p.branches) least (more.map (least + ·))]

/-- The shape of a pattern. -/
def shape (p : Pattern) : Shape :=
  .alternation p.branches

end Rollup.Pattern

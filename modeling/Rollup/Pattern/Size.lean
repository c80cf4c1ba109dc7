import Rollup.Pattern.Shape
import Rollup.Text.Utf8

/-!
# Sizes of automata

A pattern is searched for by two automata over octets, one that runs forwards and remembers the
groups, and one that runs backwards. The storage of an automaton grows with its states, and a
pattern is accepted only if both fit into `sizeLimit`. Counted repetitions copy what they repeat,
so short patterns can be too large.

A set of characters takes several states. Forwards, equal continuations are shared. Backwards,
states are shared through a table with a fixed number of slots, in which an entry is lost when
another one takes its slot.
-/

namespace Rollup.Pattern

/-- The storage that an automaton may take, in octets. -/
def sizeLimit : Nat := 10 * 1024 * 1024

/-- The storage of a state. -/
def stateSize : Nat := 32

/-- The storage of a transition on a range of octets. -/
def rangeSize : Nat := 8

/-- The storage of a transition that takes no octet. -/
def jumpSize : Nat := 4

/-- The storage of a state with several ranges. -/
def rangesState (n : Nat) : Nat :=
  stateSize + rangeSize * n

/-- The storage of a state with several jumps. -/
def jumpsState (n : Nat) : Nat :=
  stateSize + jumpSize * n

/-- The storage in front of a pattern: one state if every match begins at the start of the text,
    and else a loop over any octets. -/
def entrySize (anchored : Bool) : Nat :=
  if anchored then stateSize else jumpsState 2 + stateSize + rangesState 1

/-! ## Sets -/

/-- Whether a set in normal form has only characters of one octet. -/
def isAscii (ranges : Text.CodePoints) : Bool :=
  ranges.all fun r => r.2 < 0x80

/-- The sequences of octet ranges of a set. -/
def setSequences (ranges : Text.CodePoints) : List Text.Utf8.OctetRanges :=
  ranges.flatMap fun r => Text.Utf8.sequences r.1 r.2

/-- The ranges that sequences start with, each with the sequences that continue it. Sequences with
    the same first range stand next to each other. -/
def continuations : List Text.Utf8.OctetRanges → List ((Nat × Nat) × List Text.Utf8.OctetRanges)
  | [] => []
  | [] :: rest => continuations rest
  | (r :: tail) :: rest =>
    match continuations rest with
    | (q, tails) :: others =>
      if r = q then (q, tail :: tails) :: others else (r, [tail]) :: (q, tails) :: others
    | [] => [(r, [tail])]

/-- The continuations that need a state, at all depths up to `depth`, each with its number of
    ranges; the whole comes first. -/
def nodes : (depth : Nat) → List Text.Utf8.OctetRanges → List (List Text.Utf8.OctetRanges × Nat)
  | 0, _ => []
  | depth + 1, sequences =>
    match continuations sequences with
    | [] => []
    | next => (sequences, next.length) :: next.flatMap fun n => nodes depth n.2

/-- One of each continuation. -/
def distinctNodes (ns : List (List Text.Utf8.OctetRanges × Nat)) :
    List (List Text.Utf8.OctetRanges × Nat) :=
  ns.foldl (fun kept n => if kept.any (·.1 == n.1) then kept else n :: kept) []

/-- The greatest length of an encoding. -/
def maxOctets : Nat := 4

/-- The storage of a set in the forward automaton. -/
def setSize (ranges : Text.CodePoints) : Nat :=
  if isAscii ranges then stateSize + rangesState ranges.length
  else
    let states := distinctNodes (nodes maxOctets (setSequences ranges))
    states.foldl (fun total n => total + rangesState n.2) stateSize

/-! ## Fixed texts as alternatives -/

/-- The first octets of texts, each with the rests of the texts that start with it. -/
def openings (texts : List (List UInt8)) : List (UInt8 × List (List UInt8)) :=
  texts.foldl
    (fun found text =>
      match text with
      | [] => found
      | o :: rest =>
        if found.any (·.1 == o) then
          found.map fun f => if f.1 == o then (f.1, f.2 ++ [rest]) else f
        else found ++ [(o, [rest])])
    []

/-- The texts between the empty ones. Empty texts at the start count as one. -/
def stretches (texts : List (List UInt8)) : List (List (List UInt8)) :=
  match texts with
  | [] :: rest => ([] :: rest.dropWhile List.isEmpty).splitOn []
  | texts => texts.splitOn []

/-- The number of states and the storage of a tree of texts, without its end; `depth` bounds the
    length of the texts. -/
def treeSize : (depth : Nat) → List (List UInt8) → Nat × Nat
  | 0, _ => (0, 0)
  | depth + 1, texts =>
    if texts.all List.isEmpty then (0, 0)
    else
      let found := (stretches texts).map openings
      let filled := found.filter fun f => !f.isEmpty
      let own := filled.foldl
        (fun total f => total + if f.length = 1 then stateSize else rangesState f.length)
        (jumpsState (filled.length + found.length - 1))
      (filled.flatten.map fun f => treeSize depth f.2).foldl
        (fun total t => (total.1 + t.1, total.2 + t.2)) (filled.length + 1, own)

/-- The octets of each of several shapes, if all are fixed texts. -/
def fixedTexts? (ss : List Shape) : Option (List (List UInt8)) :=
  ss.mapM fun
    | .octets os => some os
    | _ => none

/-- The number of states and the storage of fixed texts as alternatives. -/
def textsSize (texts : List (List UInt8)) : Nat × Nat :=
  let tree := treeSize (texts.foldl (fun n t => max n t.length) 0 + 1) texts
  (tree.1 + 1, tree.2 + stateSize)

/-! ## The forward automaton -/

mutual

/-- The storage of a shape in the forward automaton. -/
def forwardSize : Shape → Nat
  | .empty | .start | .stop | .edge _ => stateSize
  | .octets os => stateSize * os.length
  | .set ranges => setSize ranges
  | .group s => 2 * stateSize + forwardSize s
  | .times s least most =>
    let one := forwardSize s
    match least, most with
    | 0, some 1 => jumpsState 2 + one + stateSize
    | 0, none =>
      if s.minLength.any (0 < ·) then jumpsState 2 + one
      else one + 2 * jumpsState 2 + stateSize
    | least, none => least * one + jumpsState 2
    | least, some most =>
      let fixed := if least = 0 then stateSize else least * one
      if least = most then fixed else fixed + stateSize + (most - least) * (jumpsState 2 + one)
  | .seq ss => forwardSizes ss
  | .alt ss =>
    match fixedTexts? ss with
    | some texts => (textsSize texts).2
    | none => forwardSizes ss + jumpsState ss.length + stateSize

/-- The storage of several shapes. -/
def forwardSizes : List Shape → Nat
  | [] => 0
  | s :: rest => forwardSize s + forwardSizes rest

end

/-- Whether the forward automaton of a shape is small enough. -/
def fitsForward (s : Shape) : Bool :=
  entrySize s.startsAtStart + 2 * stateSize + forwardSize s + stateSize ≤ sizeLimit

/-! ## The backward automaton -/

/-- A state of a set that later encodings may share: where it leads, on which octets, and its
    number. -/
structure Shared where
  next : Nat
  range : Nat × Nat
  number : Nat
  deriving DecidableEq, Repr

/-- An automaton in the making: the number of its states, their storage, and the table of the
    states to be shared. -/
structure Building where
  states : Nat
  size : Nat
  table : Array (Option Shared)

/-- The number of slots in the table. -/
def tableSlots : Nat := 1000

/-- The slot of a state in the table. -/
def slot (next : Nat) (range : Nat × Nat) : Nat :=
  let mix := fun (h : UInt64) (n : Nat) => (h ^^^ UInt64.ofNat n) * 1099511628211
  (mix (mix (mix 14695981039346656037 next) range.1) range.2).toNat % tableSlots

namespace Building

/-- Adds states; fails if there is no room for them. -/
def add? (b : Building) (states size : Nat) : Option Building :=
  let total := b.size + size
  if total ≤ sizeLimit then some { b with states := b.states + states, size := total } else none

/-- Adds a state that leads on to state `next` on a range of octets, and puts it into its slot of the
    table; also answers its number. -/
def addRange? (b : Building) (next : Nat) (range : Nat × Nat) : Option (Building × Nat) :=
  let number := b.states
  (b.add? 1 stateSize).map fun b =>
    let entry := some ⟨next, range, number⟩
    ({ b with table := b.table.setIfInBounds (slot next range) entry }, number)

/-- The state that leads on to state `next` on a range of octets: the one in the table, or else a
    new one. -/
def share? (b : Building) (next : Nat) (range : Nat × Nat) : Option (Building × Nat) :=
  match (b.table[slot next range]?).join with
  | some known =>
    if known.next = next ∧ known.range = range then some (b, known.number)
    else b.addRange? next range
  | none => b.addRange? next range

/-- Adds the states for one sequence of octet ranges, which leads to state `stop`. -/
def addSequence? (b : Building) (stop : Nat) (ranges : Text.Utf8.OctetRanges) : Option Building :=
  (ranges.foldlM (fun (reached : Building × Nat) range => reached.1.share? reached.2 range) (b, stop)).map
    Prod.fst

/-- Adds the states of a set. -/
def addSet? (b : Building) (ranges : Text.CodePoints) : Option Building := do
  if isAscii ranges then b.add? 2 (stateSize + rangesState ranges.length)
  else
    let sequences := setSequences ranges
    let stop := b.states + 1
    let b ← b.add? 2 (jumpsState sequences.length + stateSize)
    sequences.foldlM (fun b ranges => b.addSequence? stop ranges) b

/-- Takes a step `n` times. -/
def iterate? (step : Building → Option Building) : (n : Nat) → Building → Option Building
  | 0, b => some b
  | n + 1, b =>
    match step b with
    | none => none
    | some b => iterate? step n b

mutual

/-- Adds the states of a shape, which is mirrored. Groups leave no trace. -/
def addShape? : Shape → Building → Option Building
  | .empty, b | .start, b | .stop, b | .edge _, b => b.add? 1 stateSize
  | .octets os, b => b.add? os.length (stateSize * os.length)
  | .set ranges, b => b.addSet? ranges
  | .group s, b => addShape? s b
  | .times s least most, b =>
    let one := addShape? s
    let fork := fun (b : Building) => b.add? 1 (jumpsState 2)
    match least, most with
    | 0, some 1 => do (← one (← fork b)).add? 1 stateSize
    | 0, none =>
      if s.minLength.any (0 < ·) then do one (← fork b)
      else do (← fork (← fork (← one b))).add? 1 stateSize
    | least, none => do fork (← iterate? one least b)
    | least, some most => do
      let b ← if least = 0 then b.add? 1 stateSize else iterate? one least b
      if least = most then return b
      iterate? (fun b => do one (← fork b)) (most - least) (← b.add? 1 stateSize)
  | .seq ss, b => addShapes? ss b
  | .alt ss, b =>
    match fixedTexts? ss with
    | some texts => b.add? (textsSize texts).1 (textsSize texts).2
    | none => addAlternatives? ss.length 0 ss b

/-- Adds the states of several shapes in order. -/
def addShapes? : List Shape → Building → Option Building
  | [], b => some b
  | s :: rest, b => do addShapes? rest (← addShape? s b)

/-- Adds the states of alternatives; their fork and their end come after the first two. -/
def addAlternatives? (total : Nat) : (done : Nat) → List Shape → Building → Option Building
  | _, [], b => some b
  | done, s :: rest, b => do
    let b ← addShape? s b
    let b ← if done = 1 then b.add? 2 (jumpsState total + stateSize) else some b
    addAlternatives? total (done + 1) rest b

end

end Building

/-- Whether the backward automaton of a shape is small enough. -/
def fitsBackward (s : Shape) : Bool :=
  let s := s.mirrored
  let anchored := s.startsAtStart
  let entry : Building :=
    { states := if anchored then 1 else 3
      size := entrySize anchored
      table := Array.replicate tableSlots none }
  (do (← Building.addShape? s entry).add? 1 stateSize).isSome

/-- Whether both automata of a pattern are small enough. -/
def fits (p : Pattern) : Bool :=
  let s := p.shape
  fitsForward s && fitsBackward s

end Rollup.Pattern

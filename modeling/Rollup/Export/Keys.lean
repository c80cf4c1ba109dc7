import Rollup.Number.Power

/-!
# Cross-reference keys of an export

Every row of an export has a key of its own. The first node with a stored key keeps it; the other
nodes get the smallest free keys from one on. Further rows of a node get keys beyond all of these.

Keys are signed numbers of 64 bits, and counting past the greatest one wraps around, as it does in an
optimised build. Counting from one on cannot get there: it would take as many nodes.
-/

namespace Rollup.ExportKeys

/-- The nodes that keep their stored key: the first one for each key. -/
def kept : (used : List Int) → List (Nat × Option Int) → List (Nat × Int)
  | _, [] => []
  | used, (i, some key) :: rest =>
    if key ∈ used then kept used rest else (i, key) :: kept (key :: used) rest
  | used, (_, none) :: rest => kept used rest

/-- The first number that is not in use, from `next` on by steps of `step`, found within `tries`
    steps. -/
def freeFrom (step : Int → Int) (used : List Int) : (tries : Nat) → (next : Int) → Int
  | 0, next => next
  | tries + 1, next => if next ∈ used then freeFrom step used tries (step next) else next

/-- Gives each node the next free key from `next` on. -/
def assign : (used : List Int) → (next : Int) → List Nat → List (Nat × Int)
  | _, _, [] => []
  | used, next, i :: rest =>
    let key := freeFrom (· + 1) used (used.length + 1) next
    (i, key) :: assign (key :: used) key rest

/-- The key of the main row of each node. -/
def main (stored : List (Nat × Option Int)) : List (Nat × Int) :=
  let kept := kept [] stored
  let pending := (stored.map (·.1)).filter fun i => !(kept.map (·.1)).contains i
  kept ++ assign (kept.map (·.2)) 1 pending

/-! ## Further rows -/

/-- The greatest key. -/
def greatest : Int :=
  twoTo 63 - 1

/-- The number after a key; after the greatest one comes the least. -/
def succ (key : Int) : Int :=
  if key = greatest then -(twoTo 63) else key + 1

/-- Where the keys of further rows start: beyond the main keys, and at `start` or later. -/
def firstExtra (start : Int) (keys : List (Nat × Int)) : Int :=
  match (keys.map (·.2)).max? with
  | none => start
  | some last => max (succ last) start

/-- The first number from `next` on that is not in use. -/
def vacant (used : List Int) (next : Int) : Int :=
  freeFrom succ used (used.length + 1) next

/-- Where the count of keys stands after some further rows. -/
def after (used : List Int) : (rows : Nat) → (next : Int) → Int
  | 0, next => next
  | rows + 1, next => after used rows (succ (vacant used next))

/-- The key of a further row, by the number of those before it, counted from `next` on. -/
def further (used : List Int) (next : Int) (rows : Nat) : Int :=
  vacant used (after used rows next)

end Rollup.ExportKeys

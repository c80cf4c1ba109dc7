import Rollup.Node

/-!
# Forests

A list of nodes as a forest: every node has the position of its parent, if the parent is in the
list. Nothing is assumed about the list: parents may be missing, be the node itself or form
cycles, and storage ids may repeat, in which case the last node with an id is meant.
-/

namespace Rollup

/-- A list of nodes with the position of each node's parent. -/
structure Forest where
  nodes : List Node
  parents : List (Option Nat)
  deriving Repr

namespace Forest

/-- The position of the last node with a storage id. -/
def position? (nodes : List Node) (id : String) : Option Nat :=
  (nodes.zipIdx.reverse.find? (·.1.id == id)).map (·.2)

/-- The forest of a list of nodes. -/
def ofNodes (nodes : List Node) : Forest :=
  ⟨nodes, nodes.map fun n => n.parentId.bind (position? nodes)⟩

/-- The number of nodes. -/
def size (f : Forest) : Nat :=
  f.nodes.length

/-- The position of the parent of the node at a position. -/
def parent? (f : Forest) (i : Nat) : Option Nat :=
  (f.parents[i]?).join

/-- The positions of the nodes whose parent is at a position. -/
def children (f : Forest) (i : Nat) : List Nat :=
  (f.parents.zipIdx.filter (·.1 == some i)).map (·.2)

/-- Whether no node has the node at a position as its parent. -/
def isLeaf (f : Forest) (i : Nat) : Bool :=
  !f.parents.contains (some i)

/-- Climbs from the head of a chain, for at most the given number of steps and never to a node
    that is in the chain already. -/
def climb (f : Forest) : (steps : Nat) → List Nat → List Nat
  | 0, chain => chain
  | steps + 1, chain =>
    match chain.head?.bind f.parent? with
    | none => chain
    | some p => if p ∈ chain then chain else climb f steps (p :: chain)

/-- The ancestors of a node and the node itself, the topmost first. -/
def lineage (f : Forest) (i : Nat) : List Nat :=
  f.climb f.size [i]

end Forest

end Rollup

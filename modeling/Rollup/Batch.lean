import Rollup.Node

/-!
# Batches

All nodes that one import touches: those stored before it, and those it creates. Nodes are
addressed by position. Keys lead to positions, and the first registration of a key counts; keys
of the import itself are consulted before those of stored nodes.
-/

namespace Rollup

/-- Where a node of a batch comes from. -/
inductive Origin where
  /-- Built from rows of the file. -/
  | imported
  /-- Filled in for an ancestor that no row describes. -/
  | synthesized
  /-- Stored before. -/
  | stored
  deriving DecidableEq, Repr

/-- A node of a batch with its path, the position of its parent, and the position of its row
    group. -/
structure BatchEntry where
  node : Node
  origin : Origin
  path : List String
  parent : Option Nat := none
  group : Option Nat := none
  deriving Repr

/-- Positions by key. -/
structure KeyTable where
  ids : List (String × Nat) := []
  xrefs : List (Int × Nat) := []
  names : List (String × Nat) := []
  paths : List (List String × Nat) := []
  deriving DecidableEq, Repr

namespace KeyTable

/-- Registers a hierarchy id. -/
def addId (t : KeyTable) (hierarchyId : String) (i : Nat) : KeyTable :=
  { t with ids := t.ids ++ [(hierarchyId, i)] }

/-- Registers a cross-reference key. -/
def addXref (t : KeyTable) (key : Int) (i : Nat) : KeyTable :=
  { t with xrefs := t.xrefs ++ [(key, i)] }

/-- Registers a name. -/
def addName (t : KeyTable) (name : String) (i : Nat) : KeyTable :=
  { t with names := t.names ++ [(name, i)] }

/-- Registers a path; the empty path is no key. -/
def addPath (t : KeyTable) (path : List String) (i : Nat) : KeyTable :=
  if path = [] then t else { t with paths := t.paths ++ [(path, i)] }

/-- The position registered first for a hierarchy id. -/
def id? (t : KeyTable) (hierarchyId : String) : Option Nat :=
  t.ids.lookup hierarchyId

/-- The position registered first for a cross-reference key. -/
def xref? (t : KeyTable) (key : Int) : Option Nat :=
  t.xrefs.lookup key

/-- The position registered first for a name. -/
def name? (t : KeyTable) (name : String) : Option Nat :=
  t.names.lookup name

/-- The position registered first for a path. -/
def path? (t : KeyTable) (path : List String) : Option Nat :=
  t.paths.lookup path

/-- The position registered first for a path of the given length that ends with the name. -/
def depthName? (t : KeyTable) (depth : Nat) (name : String) : Option Nat :=
  (t.paths.find? fun p => p.1.length == depth && p.1.getLast? == some name).map (·.2)

end KeyTable

/-- All nodes that one import touches. -/
structure Batch where
  entries : List BatchEntry := []
  fresh : KeyTable := {}
  stored : KeyTable := {}
  deriving Repr

namespace Batch

/-! ## Building -/

/-- Adds a node at the end. -/
def push (b : Batch) (e : BatchEntry) : Batch :=
  { b with entries := b.entries ++ [e] }

/-- The position of the next node. -/
def size (b : Batch) : Nat :=
  b.entries.length

/-- Adds a stored node and registers its keys. -/
def pushStored (b : Batch) (n : Node) : Batch :=
  let i := b.size
  let keys := (b.stored.addId n.hierarchyId i).addName n.name i
  let keys := match n.xrefKey with
    | some key => keys.addXref key i
    | none => keys
  { b.push ⟨n, .stored, n.levelPath, none, none⟩ with stored := keys.addPath n.levelPath i }

/-- The batch of the nodes stored before. -/
def ofStored (nodes : List Node) : Batch :=
  nodes.foldl pushStored {}

/-- Changes the node at a position. -/
def modify (b : Batch) (i : Nat) (f : BatchEntry → BatchEntry) : Batch :=
  { b with entries := b.entries.modify i f }

/-- Changes the keys of the import. -/
def register (b : Batch) (f : KeyTable → KeyTable) : Batch :=
  { b with fresh := f b.fresh }

/-! ## Looking up -/

/-- The nodes of the batch. -/
def nodes (b : Batch) : List Node :=
  b.entries.map (·.node)

/-- The position for a hierarchy id. -/
def byId? (b : Batch) (hierarchyId : String) : Option Nat :=
  (b.fresh.id? hierarchyId).or (b.stored.id? hierarchyId)

/-- The position for a cross-reference key. -/
def byXref? (b : Batch) (key : Int) : Option Nat :=
  (b.fresh.xref? key).or (b.stored.xref? key)

/-- The position for a path. -/
def byPath? (b : Batch) (path : List String) : Option Nat :=
  (b.fresh.path? path).or (b.stored.path? path)

/-- The position for a depth and a name. -/
def byDepthName? (b : Batch) (depth : Nat) (name : String) : Option Nat :=
  (b.fresh.depthName? depth name).or (b.stored.depthName? depth name)

/-- The stored node that a placeholder can stand for: one with its id, else its path, else its
    depth and name, else its name. -/
def storedMatch? (b : Batch) (hierarchyId : String) (path : List String) (name : String) :
    Option Nat :=
  (((b.stored.id? hierarchyId).or (b.stored.path? path)).or
    (b.stored.depthName? path.length name)).or (b.stored.name? name)

/-! ## Parents -/

/-- The position of the parent of the node at a position. -/
def parent? (b : Batch) (i : Nat) : Option Nat :=
  (b.entries[i]?).bind (·.parent)

/-- Whether climbing from `i` meets `child` or does not end within the given number of steps. -/
def climbMeets (b : Batch) (child : Nat) : (steps : Nat) → Nat → Bool
  | 0, _ => true
  | steps + 1, i =>
    if i = child then true
    else match b.parent? i with
      | none => false
      | some p => climbMeets b child steps p

/-- Whether linking `child` below `parent` would close a cycle. -/
def wouldCycle (b : Batch) (child parent : Nat) : Bool :=
  b.climbMeets child b.size parent

end Batch

end Rollup

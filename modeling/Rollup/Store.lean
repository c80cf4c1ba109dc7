import Rollup.Error
import Rollup.Node
import Rollup.Number.Kept

/-!
# The store

Projects, their nodes in the order in which they were created, and settings. Storage ids are
distinct over all projects, hierarchy ids are distinct within a project, and a node belongs to a
stored project. Parent links are kept as they are given.

Results:

* `freshId_notMem`: a fresh storage id is neither the id of a node nor referred to by one.
* `nodes_create`, `nodes_update`: what a successful write does to the list of nodes.
* `setting_setSetting`: a setting is seen in its own scope and under its own key only.
-/

namespace Rollup

/-! ## What is kept of a node -/

mutual

/-- A value after it has been kept as text. -/
def Value.kept : Value → Value
  | .number x => .number x.kept
  | .list items => .list (Value.keptItems items)
  | .object fields => .object (Value.keptFields fields)
  | .null => .null
  | .bool b => .bool b
  | .int n => .int n
  | .text s => .text s

/-- The items of a list after they have been kept as text. -/
def Value.keptItems : List Value → List Value
  | [] => []
  | v :: rest => v.kept :: Value.keptItems rest

/-- The fields of an object after they have been kept as text. -/
def Value.keptFields : List (String × Value) → List (String × Value)
  | [] => []
  | (k, v) :: rest => (k, v.kept) :: Value.keptFields rest

end

/-- A formula after it has been kept: its constants are numbers kept as text. -/
def Formula.kept (f : Formula) : Formula :=
  { f with rules := f.rules.map fun r => { r with constant := r.constant.map Binary64.kept } }

/-- A node as the store keeps it: a filter that says nothing is none, and numbers are kept as
    text. -/
def Node.kept (n : Node) : Node :=
  { n with
    formula := n.formula.map Formula.kept
    filter := n.filter.filter (!·.isEmpty)
    metadata := Value.keptFields n.metadata }

/-! ## Stores -/

/-- A project: a forest of nodes of its own. -/
structure Project where
  id : String
  name : String
  deriving DecidableEq, Repr

/-- Where a setting holds: everywhere, or in one project. -/
inductive Scope where
  | everywhere
  | project (id : String)
  deriving DecidableEq, Repr

/-- The content of a store. -/
structure Store where
  projects : List Project := []
  nodes : List Node := []
  settings : List (Scope × Dict String) := []
  deriving Repr

namespace Store

/-! ## Projects -/

/-- The project with an id. -/
def project? (s : Store) (id : String) : Option Project :=
  s.projects.find? (·.id == id)

/-- Whether a project is stored. -/
def hasProject (s : Store) (id : String) : Bool :=
  (s.project? id).isSome

/-- Adds a project. -/
def addProject (s : Store) (p : Project) : Store :=
  { s with projects := s.projects ++ [p] }

/-! ## Nodes -/

/-- The nodes of a project in the order of their creation. -/
def nodesOf (s : Store) (project : String) : List Node :=
  s.nodes.filter (·.projectId == project)

/-- The node of a project with a hierarchy id. -/
def node? (s : Store) (project hierarchyId : String) : Option Node :=
  (s.nodesOf project).find? (·.hierarchyId == hierarchyId)

/-- All storage ids that nodes have or refer to. -/
def idsInUse (s : Store) : List String :=
  s.nodes.map (·.id) ++ s.nodes.filterMap (·.parentId)

/-- The text of the `n`th storage id. The long start keeps generated ids apart from those that
    people choose. -/
def idText (n : Nat) : String :=
  "6f1c2a90-5d37-4b8e-9a41-" ++ toString n

/-- A storage id that is not in use: numbered by the size of the store, or longer than any other
    should that one be taken. -/
def freshId (s : Store) : String :=
  let numbered := idText s.nodes.length
  if numbered ∈ s.idsInUse then
    let longest := (s.idsInUse.map (·.toList.length)).foldl max 0
    String.ofList (List.replicate (longest + 1) 'n')
  else numbered

/-- The storage id that a node gets: its own, or a fresh one if it has none. -/
def idFor (s : Store) (n : Node) : String :=
  if n.id = "" then s.freshId else n.id

/-- Adds a node, and answers its storage id. -/
def create (s : Store) (n : Node) : Except StoreError (String × Store) :=
  let id := s.idFor n
  if (s.node? n.projectId n.hierarchyId).isSome then .error .duplicateHierarchyId
  else if s.nodes.any (·.id == id) then .error .duplicateId
  else if !s.hasProject n.projectId then .error .unknownProject
  else .ok (id, { s with nodes := s.nodes ++ [{ n.kept with id := id }] })

/-- Replaces the node with the storage id of `n`. It keeps its place and its project. -/
def update (s : Store) (n : Node) : Except StoreError Store :=
  match s.nodes.find? (·.id == n.id) with
  | none => .error (.notFound "HierarchyNode" n.id)
  | some old =>
    if (s.nodesOf old.projectId).any fun m => m.hierarchyId == n.hierarchyId && m.id != n.id then
      .error .duplicateHierarchyId
    else
      .ok { s with nodes := s.nodes.map fun m =>
        if m.id = n.id then { n.kept with projectId := m.projectId } else m }

/-! ## Laws of writes -/

theorem length_le_foldl_max (start : Nat) (ns : List Nat) :
    start ≤ ns.foldl max start ∧ ∀ n ∈ ns, n ≤ ns.foldl max start := by
  induction ns generalizing start with
  | nil => simp
  | cons m rest ih =>
    obtain ⟨h1, h2⟩ := ih (max start m)
    refine ⟨Nat.le_trans (Nat.le_max_left start m) h1, ?_⟩
    intro n hn
    rcases List.mem_cons.mp hn with h | h
    · subst h
      exact Nat.le_trans (Nat.le_max_right start n) h1
    · exact h2 n h

/-- A fresh storage id is not in use. -/
theorem freshId_notMem (s : Store) : s.freshId ∉ s.idsInUse := by
  unfold freshId
  simp only
  split
  · intro h
    have bound := (length_le_foldl_max 0 (s.idsInUse.map (·.toList.length))).2 _
      (List.mem_map_of_mem h)
    simp only [String.toList_ofList, List.length_replicate] at bound
    omega
  · assumption

/-- A node that is created stands at the end, under the id that is answered. -/
theorem nodes_create {s t : Store} {n : Node} {id : String} (h : s.create n = .ok (id, t)) :
    t.nodes = s.nodes ++ [{ n.kept with id := id }] := by
  unfold create at h
  simp only at h
  split at h
  · cases h
  · split at h
    · cases h
    · split at h
      · cases h
      · cases h
        rfl

/-- A node that is replaced keeps its place and its project; all others stay. -/
theorem nodes_update {s t : Store} {n : Node} (h : s.update n = .ok t) :
    t.nodes = s.nodes.map fun m =>
      if m.id = n.id then { n.kept with projectId := m.projectId } else m := by
  unfold update at h
  split at h
  · cases h
  · split at h
    · cases h
    · cases h
      rfl

/-! ## Settings -/

/-- The settings of one scope. -/
def settingsOf (s : Store) (scope : Scope) : Dict String :=
  (s.settings.lookup scope).getD []

/-- Sets a value in one scope. -/
def setSetting (s : Store) (scope : Scope) (key value : String) : Store :=
  let updated := Dict.insert key value (s.settingsOf scope)
  { s with settings := (scope, updated) :: s.settings.filter (·.1 != scope) }

/-- A setting is seen in its own scope and under its own key only. -/
theorem setting_setSetting (s : Store) (scope scope' : Scope) (key key' value : String) :
    Dict.get? key' ((s.setSetting scope key value).settingsOf scope') =
      if scope' = scope ∧ key' = key then some value else Dict.get? key' (s.settingsOf scope') := by
  by_cases hs : scope' = scope
  · subst hs
    simp [setSetting, settingsOf, Dict.get?_insert]
  · have other : (s.settings.filter (·.1 != scope)).lookup scope' = s.settings.lookup scope' := by
      induction s.settings with
      | nil => rfl
      | cons entry rest ih =>
        obtain ⟨scope'', values⟩ := entry
        by_cases h : scope'' = scope
        · subst h
          simp [List.lookup_cons, beq_eq_false_iff_ne.mpr hs, ih]
        · by_cases h' : scope' = scope''
          · subst h'
            simp [h]
          · simp [h, List.lookup_cons, beq_eq_false_iff_ne.mpr h', ih]
    simp [setSetting, settingsOf, List.lookup_cons, beq_eq_false_iff_ne.mpr hs, hs, other]

/-- The value of a setting in a project: its own, else the one that holds everywhere. -/
def setting? (s : Store) (project : Option String) (key : String) : Option String :=
  (project.bind fun p => Dict.get? key (s.settingsOf (.project p))).or
    (Dict.get? key (s.settingsOf .everywhere))

/-- The settings that hold everywhere, overlaid with those of a project if one is given. -/
def settingsShown (s : Store) : Option String → Dict String
  | none => s.settingsOf .everywhere
  | some p => Dict.overlay (s.settingsOf .everywhere) (s.settingsOf (.project p))

end Store

/-! ## Guarded writes -/

/-- Which writes of nodes fail, and why. A guard stands for a medium that can refuse a write. -/
structure WriteGuard where
  onCreate : Node → Option StoreError
  onUpdate : Node → Option StoreError

/-- No write is refused. -/
def WriteGuard.permissive : WriteGuard :=
  ⟨fun _ => none, fun _ => none⟩

namespace Store

/-- Adds a node unless the guard refuses. -/
def guardedCreate (g : WriteGuard) (s : Store) (n : Node) : Except StoreError (String × Store) :=
  match g.onCreate n with
  | some e => .error e
  | none => s.create n

/-- Replaces a node unless the guard refuses. -/
def guardedUpdate (g : WriteGuard) (s : Store) (n : Node) : Except StoreError Store :=
  match g.onUpdate n with
  | some e => .error e
  | none => s.update n

end Store

end Rollup

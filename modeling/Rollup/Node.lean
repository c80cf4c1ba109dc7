import Rollup.Operation
import Rollup.Text.Blank
import Rollup.Value

/-!
# Nodes of a hierarchy

A node has an identity, a place in its tree, flags, the source columns it is fed from, and
possibly a formula over other nodes.
-/

namespace Rollup

/-! ## Flags -/

/-- The fixed flags of a node. -/
structure NodeFlags where
  included : Bool := true
  excluded : Bool := false
  transformed : Bool := false
  calculated : Bool := false
  active : Bool := true
  leaf : Bool := false
  deriving DecidableEq, Repr

/-- The named flags of a node beyond the fixed ones; names are kept in upper case. -/
abbrev CustomFlags := Dict Bool

namespace CustomFlags

/-- The form in which a flag name is kept. -/
def key (name : String) : String :=
  Text.upper (Text.trim name)

/-- Sets a flag; a blank name sets nothing. -/
def set (name : String) (value : Bool) (flags : CustomFlags) : CustomFlags :=
  if key name = "" then flags else Dict.insert (key name) value flags

/-- The value of a flag, whatever the case of its name. -/
def get? (name : String) (flags : CustomFlags) : Option Bool :=
  Dict.get? (key name) flags

end CustomFlags

/-! ## Source mappings -/

/-- The flags of a source mapping. -/
structure MappingFlags where
  included : Bool := true
  excluded : Bool := false
  transformed : Bool := false
  active : Bool := true
  deriving DecidableEq, Repr

/-- A source column that feeds a node. -/
structure SourceMapping where
  index : Int
  database : String
  schema : String
  table : String
  column : String
  columnType : Option String := none
  filterValue : Option String := none
  precedenceGroup : Option String := none
  flags : MappingFlags := {}
  deriving DecidableEq, Repr

/-- The source column that a mapping points at, in comparable form. -/
structure Target where
  database : String
  table : String
  column : String
  deriving DecidableEq, Repr

namespace SourceMapping

/-- The target of a mapping: names are compared trimmed and in upper case. -/
def target (m : SourceMapping) : Target :=
  { database := Text.upper (Text.trim m.database)
    table := Text.upper (Text.trim m.table)
    column := Text.upper (Text.trim m.column) }

/-- Whether two mappings read the same values: same target, schema and filter. -/
def sameTarget (a b : SourceMapping) : Bool :=
  a.target == b.target &&
    Text.equalIgnoringAsciiCase (Text.trim a.schema) (Text.trim b.schema) &&
    a.filterValue == b.filterValue

/-- Whether a mapping names neither a table nor a column. -/
def isBlank (m : SourceMapping) : Bool :=
  Text.isAllBlank m.table && Text.isAllBlank m.column

end SourceMapping

/-! ## Formulas -/

/-- One operand of a formula. The operand is a name until it is resolved to a hierarchy id; a rule
    with an empty operand contributes its constant only. -/
structure Rule where
  operation : Operation
  operand : String
  precedence : Int
  constant : Option Binary64
  deriving DecidableEq, Repr

/-- The formula of a node. -/
structure Formula where
  groupName : String
  mainId : String
  rules : List Rule
  expression : Option String
  deriving DecidableEq, Repr

/-- A hierarchy that a total adds up. -/
structure TotalChild where
  hierarchyId : Option String
  name : String
  deriving DecidableEq, Repr

/-- An aggregate over other hierarchies. -/
structure Total where
  groupName : String
  mainName : String
  aggregation : Operation
  children : List TotalChild
  deriving DecidableEq, Repr

/-- The filter part of a node: the values of its filter groups, and its total. -/
structure Filter where
  groups : Dict String := []
  total : Option Total := none
  deriving DecidableEq, Repr

/-- Whether a filter says nothing. -/
def Filter.isEmpty (f : Filter) : Bool :=
  f.groups.isEmpty && f.total.isNone

/-! ## Nodes -/

/-- A node of a hierarchy. `id` is its storage id, empty as long as it is not stored, and
    `parentId` is the storage id of its parent. -/
structure Node where
  id : String := ""
  hierarchyId : String
  projectId : String
  name : String
  description : Option String := none
  parentId : Option String := none
  isRoot : Bool := true
  levelPath : List String := []
  levelSorts : List (Option Int) := []
  sortOrder : Int := 0
  flags : NodeFlags := {}
  customFlags : CustomFlags := []
  mappings : List SourceMapping := []
  formula : Option Formula := none
  filter : Option Filter := none
  xrefKey : Option Int := none
  metadata : Dict Value := []
  deriving Repr

namespace Node

/-- How the hierarchy ids of placeholders start. -/
def placeholderMark : String := "SYNTH_"

/-- The metadata entry that marks a placeholder. -/
def placeholderKey : String := "synthesized"

/-- Whether the node is a placeholder for an ancestor that no row described. -/
def isPlaceholder (n : Node) : Bool :=
  placeholderMark.toList.isPrefixOf n.hierarchyId.toList ||
    ((Dict.get? placeholderKey n.metadata).bind Value.bool?).getD false

/-- The total of the node. -/
def total? (n : Node) : Option Total :=
  n.filter.bind (·.total)

/-- Whether the node has a formula or a total. -/
def hasFormula (n : Node) : Bool :=
  n.formula.isSome || n.total?.isSome

/-- The node below the given parent, or as a root. -/
def withParent (n : Node) (parent : Option String) : Node :=
  { n with parentId := parent, isRoot := parent.isNone }

end Node

end Rollup

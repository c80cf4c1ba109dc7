import Rollup.Node

/-!
# Nodes as values

The value form of nodes and of their parts, in which a store is written to a file, and the way
back.
-/

namespace Rollup

namespace Value

/-- The text, if the value is one. -/
def text? : Value → Option String
  | .text s => some s
  | _ => none

/-- The integer, if the value is one. -/
def int? : Value → Option Int
  | .int n => some n
  | _ => none

/-- The number, if the value is one; an integer counts as a number. -/
def number? : Value → Option Binary64
  | .int n => Binary64.ofRatio? (n < 0) n.natAbs 1
  | .number x => some x
  | _ => none

/-- The items, if the value is a list. -/
def items? : Value → Option (List Value)
  | .list vs => some vs
  | _ => none

/-- The fields, if the value is an object. -/
def fields? : Value → Option (List (String × Value))
  | .object fs => some fs
  | _ => none

/-- What a value says that may be absent. -/
def option? {α : Type} (f : Value → Option α) : Value → Option (Option α)
  | .null => some none
  | v => (f v).map some

/-- What the items of a list say. -/
def listOf? {α : Type} (f : Value → Option α) (v : Value) : Option (List α) :=
  v.items?.bind (·.mapM f)

/-- What the fields of an object say. -/
def dictOf? {α : Type} (f : Value → Option α) (v : Value) : Option (Dict α) :=
  v.fields?.bind fun fs =>
    (fs.mapM fun (p : String × Value) => (f p.2).map fun a => (p.1, a)).map Dict.ofList

/-- What a field of an object says. -/
def get? {α : Type} (f : Value → Option α) (v : Value) (name : String) : Option α :=
  (v.field? name).bind f

/-- A dictionary as an object. -/
def ofDict {α : Type} (f : α → Value) (d : Dict α) : Value :=
  .object (d.map fun (k, a) => (k, f a))

end Value

/-! ## Flags -/

/-- The value form of the fixed flags. -/
def NodeFlags.toValue (f : NodeFlags) : Value :=
  .object [("include", .bool f.included), ("exclude", .bool f.excluded),
    ("transform", .bool f.transformed), ("calculation", .bool f.calculated),
    ("active", .bool f.active), ("isLeaf", .bool f.leaf)]

/-- The fixed flags of a value. -/
def NodeFlags.ofValue? (v : Value) : Option NodeFlags := do
  return {
    included := ← v.get? Value.bool? "include"
    excluded := ← v.get? Value.bool? "exclude"
    transformed := ← v.get? Value.bool? "transform"
    calculated := ← v.get? Value.bool? "calculation"
    active := ← v.get? Value.bool? "active"
    leaf := ← v.get? Value.bool? "isLeaf" }

/-! ## Mappings -/

/-- The value form of the flags of a mapping. -/
def MappingFlags.toValue (f : MappingFlags) : Value :=
  .object [("include", .bool f.included), ("exclude", .bool f.excluded),
    ("transform", .bool f.transformed), ("active", .bool f.active)]

/-- The flags of a mapping of a value. -/
def MappingFlags.ofValue? (v : Value) : Option MappingFlags := do
  return {
    included := ← v.get? Value.bool? "include"
    excluded := ← v.get? Value.bool? "exclude"
    transformed := ← v.get? Value.bool? "transform"
    active := ← v.get? Value.bool? "active" }

/-- The value form of a mapping. -/
def SourceMapping.toValue (m : SourceMapping) : Value :=
  .object [("mappingIndex", .int m.index), ("database", .text m.database),
    ("schema", .text m.schema), ("table", .text m.table), ("column", .text m.column),
    ("columnType", .ofOption .text m.columnType),
    ("sourceFilterValue", .ofOption .text m.filterValue),
    ("precedenceGroup", .ofOption .text m.precedenceGroup), ("flags", m.flags.toValue)]

/-- The mapping of a value. -/
def SourceMapping.ofValue? (v : Value) : Option SourceMapping := do
  return {
    index := ← v.get? Value.int? "mappingIndex"
    database := ← v.get? Value.text? "database"
    schema := ← v.get? Value.text? "schema"
    table := ← v.get? Value.text? "table"
    column := ← v.get? Value.text? "column"
    columnType := ← v.get? (Value.option? Value.text?) "columnType"
    filterValue := ← v.get? (Value.option? Value.text?) "sourceFilterValue"
    precedenceGroup := ← v.get? (Value.option? Value.text?) "precedenceGroup"
    flags := ← v.get? MappingFlags.ofValue? "flags" }

/-! ## Formulas -/

/-- The value form of an operation. -/
def Operation.toValue (o : Operation) : Value :=
  .text o.keyword

/-- The operation of a value. -/
def Operation.ofValue? (v : Value) : Option Operation :=
  v.text?.bind fun s => Operation.all.find? (·.keyword == s)

/-- The value form of a rule. -/
def Rule.toValue (r : Rule) : Value :=
  .object [("operation", r.operation.toValue), ("hierarchyNameOrId", .text r.operand),
    ("precedence", .int r.precedence), ("constant", .ofOption .number r.constant)]

/-- The rule of a value. -/
def Rule.ofValue? (v : Value) : Option Rule := do
  return {
    operation := ← v.get? Operation.ofValue? "operation"
    operand := ← v.get? Value.text? "hierarchyNameOrId"
    precedence := ← v.get? Value.int? "precedence"
    constant := ← v.get? (Value.option? Value.number?) "constant" }

/-- The value form of a formula. -/
def Formula.toValue (f : Formula) : Value :=
  .object [("groupName", .text f.groupName), ("mainHierarchyId", .text f.mainId),
    ("rules", .list (f.rules.map Rule.toValue)), ("expression", .ofOption .text f.expression)]

/-- The formula of a value. -/
def Formula.ofValue? (v : Value) : Option Formula := do
  return {
    groupName := ← v.get? Value.text? "groupName"
    mainId := ← v.get? Value.text? "mainHierarchyId"
    rules := ← v.get? (Value.listOf? Rule.ofValue?) "rules"
    expression := ← v.get? (Value.option? Value.text?) "expression" }

/-- The value form of a child of a total. -/
def TotalChild.toValue (c : TotalChild) : Value :=
  .object [("hierarchyId", .ofOption .text c.hierarchyId), ("hierarchyName", .text c.name)]

/-- The child of a total of a value. -/
def TotalChild.ofValue? (v : Value) : Option TotalChild := do
  return {
    hierarchyId := ← v.get? (Value.option? Value.text?) "hierarchyId"
    name := ← v.get? Value.text? "hierarchyName" }

/-- The value form of a total. -/
def Total.toValue (t : Total) : Value :=
  .object [("groupName", .text t.groupName), ("mainHierarchyName", .text t.mainName),
    ("aggregation", t.aggregation.toValue),
    ("children", .list (t.children.map TotalChild.toValue))]

/-- The total of a value. -/
def Total.ofValue? (v : Value) : Option Total := do
  return {
    groupName := ← v.get? Value.text? "groupName"
    mainName := ← v.get? Value.text? "mainHierarchyName"
    aggregation := ← v.get? Operation.ofValue? "aggregation"
    children := ← v.get? (Value.listOf? TotalChild.ofValue?) "children" }

/-- The value form of a filter. -/
def Filter.toValue (f : Filter) : Value :=
  .object [("filterGroups", .ofDict .text f.groups),
    ("totalFormula", .ofOption Total.toValue f.total)]

/-- The filter of a value. -/
def Filter.ofValue? (v : Value) : Option Filter := do
  return {
    groups := ← v.get? (Value.dictOf? Value.text?) "filterGroups"
    total := ← v.get? (Value.option? Total.ofValue?) "totalFormula" }

/-! ## Nodes -/

/-- The fields of a node that do not depend on where it is stored. -/
def Node.ownFields (n : Node) : List (String × Value) :=
  [("hierarchyId", .text n.hierarchyId), ("name", .text n.name),
    ("description", .ofOption .text n.description), ("isRoot", .bool n.isRoot),
    ("levelPath", .texts n.levelPath),
    ("levelSortOrders", .list (n.levelSorts.map (Value.ofOption .int))),
    ("sortOrder", .int n.sortOrder), ("flags", n.flags.toValue),
    ("customFlags", .ofDict .bool n.customFlags),
    ("sourceMappings", .list (n.mappings.map SourceMapping.toValue)),
    ("formulaConfig", .ofOption Formula.toValue n.formula),
    ("filterConfig", .ofOption Filter.toValue n.filter), ("xrefKey", .ofOption .int n.xrefKey),
    ("metadata", .object n.metadata)]

/-- The value form of a node. -/
def Node.toValue (n : Node) : Value :=
  .object ([("id", .text n.id), ("projectId", .text n.projectId),
    ("parentId", .ofOption .text n.parentId)] ++ n.ownFields)

/-- The node of a value. -/
def Node.ofValue? (v : Value) : Option Node := do
  return {
    id := ← v.get? Value.text? "id"
    hierarchyId := ← v.get? Value.text? "hierarchyId"
    projectId := ← v.get? Value.text? "projectId"
    name := ← v.get? Value.text? "name"
    description := ← v.get? (Value.option? Value.text?) "description"
    parentId := ← v.get? (Value.option? Value.text?) "parentId"
    isRoot := ← v.get? Value.bool? "isRoot"
    levelPath := ← v.get? (Value.listOf? Value.text?) "levelPath"
    levelSorts := ← v.get? (Value.listOf? (Value.option? Value.int?)) "levelSortOrders"
    sortOrder := ← v.get? Value.int? "sortOrder"
    flags := ← v.get? NodeFlags.ofValue? "flags"
    customFlags := ← v.get? (Value.dictOf? Value.bool?) "customFlags"
    mappings := ← v.get? (Value.listOf? SourceMapping.ofValue?) "sourceMappings"
    formula := ← v.get? (Value.option? Formula.ofValue?) "formulaConfig"
    filter := ← v.get? (Value.option? Filter.ofValue?) "filterConfig"
    xrefKey := ← v.get? (Value.option? Value.int?) "xrefKey"
    metadata := ← v.get? (fun w => w.fields?.map Dict.ofList) "metadata" }

end Rollup

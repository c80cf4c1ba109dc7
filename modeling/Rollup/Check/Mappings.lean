import Rollup.Buckets
import Rollup.Finding
import Rollup.Forest
import Rollup.Sort
import Rollup.Text.Runs

/-!
# Checks of source mappings

Leaves without a source, measures fed from columns that hold no numbers, and source columns that
feed several nodes.
-/

namespace Rollup.Check

/-! ## Missing mappings -/

/-- A finding for every leaf that has neither a source mapping nor a formula. Placeholders need
    none. -/
def missingMappings (f : Forest) : List Finding :=
  f.nodes.zipIdx.filterMap fun (n, i) =>
    if f.isLeaf i && !n.isPlaceholder && n.mappings.isEmpty && !n.hasFormula then
      some {
        kind := .missingMapping
        severity := .warning
        node := some n.ref
        message := "leaf '" ++ n.name ++ "' has no source mapping and no formula"
        details := .object [("hierarchyId", .text n.hierarchyId)] }
    else none

/-! ## Type mismatches -/

/-- The types of columns that hold numbers. -/
def numericTypes : List String :=
  ["NUMBER", "NUMERIC", "DECIMAL", "DEC", "INT", "INTEGER", "BIGINT", "SMALLINT", "TINYINT",
   "FLOAT", "DOUBLE", "DOUBLE PRECISION", "REAL", "MONEY", "SMALLMONEY", "CURRENCY", "FIXED"]

/-- The numeric types whose name can carry a width in digits. -/
def sizedNumericTypes : List String :=
  ["INT", "NUMBER", "DECIMAL", "FLOAT", "UINT"]

/-- Whether a column type holds numbers; a precision in brackets does not matter. -/
def isNumericType (columnType : String) : Bool :=
  let base := Text.upper (String.ofList
    (Text.trimChars (columnType.toList.takeWhile (· ≠ '('))))
  numericTypes.contains base ||
    sizedNumericTypes.any fun t =>
      t.toList.isPrefixOf base.toList && (base.toList.drop t.toList.length).all Char.isDigit

/-- Words that make a name read like a measure. -/
def measureWords : List String :=
  ["amount", "total", "balance", "price", "cost", "revenue", "sales", "income", "expense", "value",
   "margin", "profit", "tax", "fee", "quantity", "qty"]

/-- Whether `word` occurs in `cs`, whatever the letter case. -/
def mentions (word : List Char) : List Char → Bool
  | [] => (Text.afterFolded? word []).isSome
  | c :: rest => (Text.afterFolded? word (c :: rest)).isSome || mentions word rest

/-- Whether a name reads like a measure. -/
def isMeasureName (name : String) : Bool :=
  measureWords.any fun word => mentions word.toList name.toList

/-- The finding for a mapping that feeds a measure from a column of another type. -/
def typeMismatch? (n : Node) (m : SourceMapping) : Option Finding :=
  match m.columnType.map Text.trim with
  | none => none
  | some columnType =>
    if columnType = "" || isNumericType columnType || !isMeasureName n.name then none
    else some {
      kind := .typeMismatch
      severity := .warning
      node := some n.ref
      message := "'" ++ n.name ++ "' looks like a value but maps to " ++ columnType ++
        " column " ++ m.table ++ "." ++ m.column
      details := .object [("mappingIndex", .int m.index), ("table", .text m.table),
        ("column", .text m.column), ("columnType", .text columnType)] }

/-- The type mismatches of all mappings. -/
def typeMismatches (f : Forest) : List Finding :=
  f.nodes.flatMap fun n => n.mappings.filterMap (typeMismatch? n)

/-! ## Duplicates -/

/-- The order of targets: by database, then table, then column. -/
def targetLe (s t : Target) : Bool :=
  if s.database ≠ t.database then s.database < t.database
  else if s.table ≠ t.table then s.table < t.table
  else s.column < t.column || s.column == t.column

/-- The finding for a target that several nodes read; the first one is pointed at. -/
def duplicateMapping (owner : Node) (t : Target) (names : List String) : Finding :=
  { kind := .duplicateMapping
    severity := .warning
    node := some owner.ref
    message := t.database ++ "." ++ t.table ++ "." ++ t.column ++ " is mapped from " ++
      toString names.length ++ " nodes: " ++ Text.join ", " names
    details := .object [("database", .text t.database), ("table", .text t.table),
      ("column", .text t.column), ("nodes", .texts names)] }

/-- Every target, in order, with the positions of the nodes that read it. -/
def targetOwners (f : Forest) : List (Target × List Nat) :=
  let uses := f.nodes.zipIdx.flatMap fun (n, i) =>
    (n.mappings.filter (!·.isBlank)).map fun m => (m.target, i)
  stableSort (fun a b => targetLe a.1 b.1) ((buckets uses).map fun b => (b.1, distinct b.2))

/-- A finding for every target that at least two nodes read. -/
def duplicateMappings (f : Forest) : List Finding :=
  (targetOwners f).filterMap fun (t, positions) =>
    match positions.filterMap (f.nodes[·]?) with
    | first :: second :: rest =>
      some (duplicateMapping first t ((first :: second :: rest).map (·.name)))
    | _ => none

/-- The finding for a mapping that is about to be put on a node, if other nodes read its target
    already. -/
def candidateDuplicate? (n : Node) (candidate : SourceMapping) (nodes : List Node) :
    Option Finding :=
  let others := nodes.filter fun m =>
    m.hierarchyId ≠ n.hierarchyId && m.mappings.any (·.target == candidate.target)
  if candidate.isBlank || others.isEmpty then none
  else some (duplicateMapping n candidate.target (n.name :: others.map (·.name)))

end Rollup.Check

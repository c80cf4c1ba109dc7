import Rollup.Text.Blank
import Rollup.Text.Case
import Rollup.Text.Runs

/-!
# The columns of the three file layouts

The standard layout is what an export writes, the legacy layout comes from an older reporting
tool, and the mapping layout lists one source column a row. A column is found by its canonical name.
Headers may be spelled with any letter case and with blanks, hyphens or underscores between the
words; the canonical name is in upper case with single underscores.
-/

namespace Rollup.Column

/-! ## Canonical names -/

/-- Characters that only separate the words of a header. -/
def isSeparator (c : Char) : Bool :=
  c = '_' || c = '-' || Text.isBlank c

/-- The byte order mark, which some tools leave in front of the first header. -/
def byteOrderMark : Char := '\uFEFF'

/-- The canonical name of a header: its words in upper case, joined by underscores. -/
def normalize (header : String) : String :=
  let body := (Text.trim header).toList.dropWhile (· = byteOrderMark)
  Text.join "_" ((Text.runs (fun c => !isSeparator c) body).map fun word =>
    String.ofList (word.flatMap Text.upperChar))

/-! ## Columns of the standard layout -/

def hierarchyId : String := "HIERARCHY_ID"
def hierarchyName : String := "HIERARCHY_NAME"
def description : String := "DESCRIPTION"
def parentId : String := "PARENT_ID"
def isRoot : String := "IS_ROOT"
def sortOrder : String := "SORT_ORDER"
def xrefKey : String := "XREF_KEY"
def parentXrefKey : String := "PARENT_XREF_KEY"
def includeFlag : String := "INCLUDE_FLAG"
def excludeFlag : String := "EXCLUDE_FLAG"
def transformFlag : String := "TRANSFORM_FLAG"
def calculationFlag : String := "CALCULATION_FLAG"
def activeFlag : String := "ACTIVE_FLAG"
def isLeafNode : String := "IS_LEAF_NODE"
def formulaGroupName : String := "FORMULA_GROUP_NAME"
def formulaOperation : String := "FORMULA_OPERATION"
def formulaOperand : String := "FORMULA_OPERAND"
def formulaPrecedence : String := "FORMULA_PRECEDENCE"
def formulaConstant : String := "FORMULA_CONSTANT"
def formulaExpression : String := "FORMULA_EXPRESSION"
def aggregation : String := "AGGREGATION"

/-! ## Columns of the legacy layout -/

def xrefHierarchyKey : String := "XREF_HIERARCHY_KEY"
def formulaGroup : String := "FORMULA_GROUP"
def arithmeticLogic : String := "ARITHMETIC_LOGIC"
def formulaParamRef : String := "FORMULA_PARAM_REF"
def formulaParamConstant : String := "FORMULA_PARAM2_CONST_NUMBER"

/-- Flag columns of the legacy layout that have no fixed place on a node. -/
def legacyFlags : List String :=
  ["DO_NOT_EXPAND_FLAG", "IS_SECURED_FLAG", "SPLIT_ACTIVE_FLAG", "EXCLUSION_FLAG", "VOLUME_FLAG",
   "ID_UNPIVOT_FLAG", "ID_ROW_FLAG", "REMOVE_FROM_TOTALS", "SIGN_CHANGE_FLAG",
   "CREATE_NEW_COLUMN"]

/-! ## Columns of the mapping layout -/

def mappingIndex : String := "MAPPING_INDEX"
def sourceDatabase : String := "SOURCE_DATABASE"
def sourceSchema : String := "SOURCE_SCHEMA"
def sourceTable : String := "SOURCE_TABLE"
def sourceColumn : String := "SOURCE_COLUMN"
def sourceColumnType : String := "SOURCE_COLUMN_TYPE"
def sourceUid : String := "SOURCE_UID"
def precedenceGroup : String := "PRECEDENCE_GROUP"

/-! ## Numbered columns -/

/-- The number of level columns a file can have. -/
def maxLevels : Nat := 15

/-- The number of filter group columns. -/
def filterGroupCount : Nat := 4

/-- The column of the `n`-th level. -/
def level (n : Nat) : String := "LEVEL_" ++ toString n

/-- The sort column of the `n`-th level in the standard layout. -/
def levelOrder (n : Nat) : String := "LEVEL_" ++ toString n ++ "_ORDER"

/-- The sort column of the `n`-th level in the legacy layout. -/
def levelSort (n : Nat) : String := "LEVEL_" ++ toString n ++ "_SORT"

/-- The `n`-th filter group column. -/
def filterGroup (n : Nat) : String := "FILTER_GROUP_" ++ toString n

/-- The numbers `1, …, n`. -/
def upTo (n : Nat) : List Nat := List.range' 1 n

/-- The character between the values of a cell that holds several. -/
def valueSeparator : Char := '|'

/-! ## Layouts -/

/-- The columns of the standard layout with the given number of levels, in the order in which an
    export writes them. -/
def standard (levels : Nat) : List String :=
  [hierarchyId, hierarchyName, description, parentId, isRoot, sortOrder, xrefKey, parentXrefKey] ++
    (upTo levels).map level ++ (upTo levels).map levelOrder ++
    [includeFlag, excludeFlag, transformFlag, calculationFlag, activeFlag, isLeafNode,
     formulaGroupName, formulaOperation, formulaOperand, formulaPrecedence, formulaConstant,
     formulaExpression, aggregation] ++
    (upTo filterGroupCount).map filterGroup

/-- The columns of the legacy layout that have a fixed meaning. -/
def legacy (levels : Nat) : List String :=
  [xrefHierarchyKey, parentXrefKey, hierarchyId, hierarchyName, description, sortOrder, activeFlag,
   calculationFlag, includeFlag, excludeFlag, transformFlag, isLeafNode, formulaGroup,
   formulaPrecedence, arithmeticLogic, formulaParamRef, formulaParamConstant, sourceDatabase,
   sourceSchema, sourceTable, sourceColumn, sourceColumnType, sourceUid, precedenceGroup,
   mappingIndex] ++
    (upTo levels).map level ++ (upTo levels).map levelSort ++
    (upTo filterGroupCount).map filterGroup

/-- The columns of the mapping layout, in the order in which an export writes them. -/
def mapping : List String :=
  [hierarchyId, mappingIndex, sourceDatabase, sourceSchema, sourceTable, sourceColumn,
   sourceColumnType, sourceUid, precedenceGroup, includeFlag, excludeFlag, transformFlag,
   activeFlag]

/-- The columns with a fixed meaning in at least one layout. -/
def known : List String :=
  standard maxLevels ++ legacy maxLevels ++ mapping

end Rollup.Column

import Rollup.Column.Layouts
import Rollup.Number.Power
import Rollup.Text.Letter

/-!
# Recognising the format of a file

The headers of a file are scored against three families of columns. A column counts when some
header spells its name, up to letter case and separators. Legacy files are recognised first,
unless a column that they never carry is present; then the higher of the other two scores wins.
-/

namespace Rollup

/-- What kind of file a set of headers belongs to. -/
inductive Format where
  | hierarchy
  | mapping
  | legacy
  | unknown
  deriving DecidableEq, Repr

/-- The name of a format. -/
def Format.name : Format → String
  | .hierarchy => "hierarchy"
  | .mapping => "mapping"
  | .legacy => "legacy"
  | .unknown => "unknown"

/-- The outcome of scoring a set of headers. -/
structure Detection where
  format : Format
  confidence : Nat
  hierarchyScore : Nat
  mappingScore : Nat
  legacyScore : Nat
  deriving DecidableEq, Repr

namespace Format

/-! ## Spelling of a column name -/

/-- What follows the words at the start of `cs`, separators allowed between them. -/
def afterWords? : (words : List (List Char)) → List Char → Option (List Char)
  | [], cs => some cs
  | [word], cs => Text.afterFolded? word cs
  | word :: words, cs =>
    (Text.afterFolded? word cs).bind fun rest =>
      afterWords? words (rest.dropWhile Column.isSeparator)

/-- Whether `header` spells the column: its words in order, with any separators between them and
    blanks around them. -/
def spells (column header : String) : Bool :=
  match afterWords? (column.toList.splitOn '_') (header.toList.dropWhile Text.isBlank) with
  | none => false
  | some rest => rest.all Text.isBlank

/-- The digits of a header `LEVEL_n`, `LEVEL_n_ORDER` or `LEVEL_n_SORT`, in any spelling; `tail`
    is what has to follow the number. -/
def levelDigits? (tail : Option String) (header : String) : Option (List Char) :=
  (Text.afterFolded? "LEVEL".toList (header.toList.dropWhile Text.isBlank)).bind fun rest =>
    let rest := rest.dropWhile Column.isSeparator
    let digits := rest.takeWhile Text.isDecimal
    let rest := rest.dropWhile Text.isDecimal
    let ending := match tail with
      | none => some rest
      | some word => Text.afterFolded? word.toList (rest.dropWhile Column.isSeparator)
    match ending with
    | none => none
    | some rest => if digits ≠ [] ∧ rest.all Text.isBlank then some digits else none

/-- The number written with ASCII digits, if it fits 32 bits. -/
def levelNumber? (digits : List Char) : Option Nat :=
  if digits.all Char.isDigit then
    let n := digits.foldl (fun n c => 10 * n + (c.toNat - '0'.toNat)) 0
    if n < twoTo 32 then some n else none
  else none

/-- The level numbers of the headers with the given tail. -/
def levelNumbers (tail : Option String) (headers : List String) : List Nat :=
  headers.filterMap fun h => (levelDigits? tail h).bind levelNumber?

/-! ## Scores -/

/-- Columns that only legacy files use. -/
def legacyFamily : List String :=
  [Column.xrefHierarchyKey, Column.formulaGroup, Column.arithmeticLogic, Column.formulaParamRef] ++
    Column.legacyFlags

/-- Columns of hierarchy files. -/
def hierarchyFamily : List String :=
  [Column.hierarchyId, Column.hierarchyName, Column.parentId, Column.description, Column.isRoot,
   Column.sortOrder, Column.xrefKey, Column.parentXrefKey, Column.formulaGroupName]

/-- Columns of mapping files. -/
def mappingFamily : List String :=
  [Column.mappingIndex, Column.sourceDatabase, Column.sourceSchema, Column.sourceTable,
   Column.sourceColumn, Column.sourceColumnType, Column.sourceUid, Column.precedenceGroup]

/-- Columns that rule the legacy format out. -/
def standardOnly : List String := [Column.parentId, Column.isRoot]

/-- The number of columns of a family that some header spells. -/
def score (family headers : List String) : Nat :=
  (family.filter fun column => headers.any (spells column)).length

/-- The legacy score: the family, and one more if some level has its sort column. -/
def legacyScore (headers : List String) : Nat :=
  let sorts := levelNumbers (some "SORT") headers
  let paired := (levelNumbers none headers).any sorts.contains
  score legacyFamily headers + if paired then 1 else 0

/-- The hierarchy score: the family, and one more if there is a level column. -/
def hierarchyScore (headers : List String) : Nat :=
  let anyLevel := headers.any fun h => (levelDigits? none h).isSome
  score hierarchyFamily headers + if anyLevel then 1 else 0

/-- The mapping score. -/
def mappingScore (headers : List String) : Nat :=
  score mappingFamily headers

/-- Whether a column is present that legacy files never carry. -/
def hasStandardOnly (headers : List String) : Bool :=
  0 < score standardOnly headers || headers.any fun h => (levelDigits? (some "ORDER") h).isSome

/-- Legacy files need this score. -/
def legacyThreshold : Nat := 3

/-- Hierarchy and mapping files need this score. -/
def tabularThreshold : Nat := 2

/-- The format of a set of headers with its scores. Each matching column adds a fifth of full
    confidence. -/
def detect (headers : List String) : Detection :=
  let l := legacyScore headers
  let h := hierarchyScore headers
  let m := mappingScore headers
  let (format, winning) :=
    if legacyThreshold ≤ l ∧ hasStandardOnly headers = false then (Format.legacy, l)
    else if m < h ∧ tabularThreshold ≤ h then (Format.hierarchy, h)
    else if h < m ∧ tabularThreshold ≤ m then (Format.mapping, m)
    else (Format.unknown, 0)
  { format := format
    confidence := min (winning * 20) 100
    hierarchyScore := h
    mappingScore := m
    legacyScore := l }

end Format

/-- The two ways in which a hierarchy file lays out its rows. -/
inductive Dialect where
  | standard
  | legacy
  deriving DecidableEq, Repr

namespace Dialect

/-- The name of a dialect. -/
def name : Dialect → String
  | standard => "standard"
  | legacy => "legacy"

/-- The dialect with a name. -/
def ofName? (s : String) : Option Dialect :=
  if s = "standard" then some standard else if s = "legacy" then some legacy else none

/-- The dialect of a detected format; mapping files and unknown ones have none. -/
def ofFormat? : Format → Option Dialect
  | .hierarchy => some standard
  | .legacy => some legacy
  | .mapping | .unknown => none

end Dialect

end Rollup

import Rollup.Finding
import Rollup.Forest
import Rollup.Text.Letter

/-!
# Checks of formulas

Expressions are searched for slips that can be seen without evaluating them, and nodes whose
children carry values but that have no formula themselves are reported.
-/

namespace Rollup.Check

/-! ## Expressions -/

/-- Whether every bracket closes one that is open; `depth` counts the open ones. -/
def balancedFrom : (depth : Nat) → List Char → Bool
  | depth, [] => depth == 0
  | depth, '(' :: rest => balancedFrom (depth + 1) rest
  | 0, ')' :: _ => false
  | depth + 1, ')' :: rest => balancedFrom depth rest
  | depth, _ :: rest => balancedFrom depth rest

/-- Whether the text after a slash is a zero: blanks, zeros, possibly a point and zeros, and then
    nothing that would continue the number. -/
def startsWithZero (cs : List Char) : Bool :=
  let numeral := cs.dropWhile Text.isBlank
  let afterZeros := numeral.dropWhile (· = '0')
  let rest := match afterZeros with
    | '.' :: fraction => fraction.dropWhile (· = '0')
    | rest => rest
  numeral.head? = some '0' &&
    match rest with
    | [] => true
    | c :: _ => !Text.isDecimal c && c ≠ '.'

/-- Whether some slash is followed by a zero. -/
def dividesByZero : List Char → Bool
  | [] => false
  | c :: rest => (c = '/' && startsWithZero rest) || dividesByZero rest

/-- Whether there is a pair of braces with nothing but blanks inside. -/
def hasEmptyPlaceholder : List Char → Bool
  | [] => false
  | c :: rest =>
    (c = '{' && (rest.dropWhile Text.isBlank).head? = some '}') || hasEmptyPlaceholder rest

/-- A slip in an expression. -/
inductive ExpressionProblem where
  | unbalanced
  | divisionByZero
  | emptyPlaceholder
  deriving DecidableEq, Repr

/-- The text of a slip. -/
def ExpressionProblem.message : ExpressionProblem → String
  | unbalanced => "unbalanced parentheses"
  | divisionByZero => "division by zero"
  | emptyPlaceholder => "empty \x7b\x7d placeholder"

/-- The slips in an expression, each at most once. -/
def expressionProblems (expression : String) : List ExpressionProblem :=
  let cs := expression.toList
  (if balancedFrom 0 cs then [] else [.unbalanced]) ++
    (if dividesByZero cs then [.divisionByZero] else []) ++
    (if hasEmptyPlaceholder cs then [.emptyPlaceholder] else [])

/-- The findings for the expression of a node. -/
def expressionFindings (n : Node) : List Finding :=
  match n.formula.bind (·.expression) with
  | none => []
  | some expression =>
    (expressionProblems expression).map fun problem => {
      kind := .formulaIssue
      severity := .error
      node := some n.ref
      message := "formula of '" ++ n.name ++ "': " ++ problem.message
      details := .object [("expression", .text expression), ("problem", .text problem.message)] }

/-! ## Missing formulas -/

/-- Whether a node carries a value of its own. -/
def contributes (n : Node) : Bool :=
  !n.mappings.isEmpty || n.hasFormula || n.flags.calculated

/-- The finding for a node without a formula above children that carry values; the fix adds them
    up. -/
def missingFormula? (f : Forest) (n : Node) (i : Nat) : Option Finding :=
  let operands := (((f.children i).filterMap (f.nodes[·]?)).filter contributes).map (·.hierarchyId)
  if n.hasFormula || operands.isEmpty then none
  else some {
    kind := .formulaIssue
    severity := .info
    node := some n.ref
    message := "'" ++ n.name ++ "' has " ++ toString operands.length ++
      " mapped or calculated children but no formula"
    details := .object [("children", .texts operands)]
    fix := some ⟨"create_sum_formula",
      .object [("operation", .text Operation.sum.keyword), ("operands", .texts operands)]⟩ }

/-- The findings about the formulas of all nodes. -/
def formulas (f : Forest) : List Finding :=
  f.nodes.zipIdx.flatMap fun (n, i) => expressionFindings n ++ (missingFormula? f n i).toList

end Rollup.Check

import Rollup.Text.Blank
import Rollup.Text.Case

/-!
# Formula operations
-/

namespace Rollup

/-- How a formula combines its operands. -/
inductive Operation where
  | sum
  | subtract
  | multiply
  | divide
  | average
  deriving DecidableEq, Repr, Inhabited

namespace Operation

/-- The keyword that is written out. -/
def keyword : Operation → String
  | sum => "SUM"
  | subtract => "SUBTRACT"
  | multiply => "MULTIPLY"
  | divide => "DIVIDE"
  | average => "AVERAGE"

/-- The words and symbols that are read as an operation, in upper case. -/
def spellings : Operation → List String
  | sum => ["SUM", "ADD", "PLUS", "+", "TOTAL"]
  | subtract => ["SUBTRACT", "SUB", "MINUS", "-", "LESS"]
  | multiply => ["MULTIPLY", "MUL", "TIMES", "*", "X"]
  | divide => ["DIVIDE", "DIV", "/"]
  | average => ["AVERAGE", "AVG", "MEAN"]

/-- All operations. -/
def all : List Operation := [sum, subtract, multiply, divide, average]

/-- The operation that a word or symbol stands for, up to case and blanks at the ends. -/
def read? (raw : String) : Option Operation :=
  let t := Text.upper (Text.trim raw)
  all.find? fun op => op.spellings.contains t

end Operation

end Rollup

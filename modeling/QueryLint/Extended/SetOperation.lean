/-
  QueryLint.Extended.SetOperation

  Set operations of a `SELECT`: `UNION`, `INTERSECT` and `EXCEPT` join two `SELECT`s.
-/
import QueryLint.Diagnostic
import QueryLint.Statement

namespace QueryLint

/-- The operators that combine the rows of two `SELECT`s. -/
inductive SetOperation where
  | union
  | intersect
  | except
  deriving DecidableEq, Repr

namespace SetOperation

/-- The keyword of a set operation. -/
def keyword : SetOperation → String
  | union => "UNION"
  | intersect => "INTERSECT"
  | except => "EXCEPT"

/-- The set operations in the order they are checked. -/
def all : List SetOperation :=
  [union, intersect, except]

/-- What can be wrong with the use of a set operation. -/
inductive Violation where
  | repeated (op : SetOperation) (times : Nat)
  | operandNotSelect (op : SetOperation)
  deriving DecidableEq, Repr

namespace Violation

/-- The label of a violation. -/
def issue : Violation → String
  | repeated op _ => s!"Multiple {op.keyword}s"
  | operandNotSelect op => s!"Invalid {op.keyword}"

/-- What a violation asks for. -/
def explanation : Violation → String
  | repeated op times =>
    s!"Ensure {op.keyword} syntax is correct. Found {times} {op.keyword} operations"
  | operandNotSelect op => s!"Both sides of {op.keyword} must be SELECT statements"

/-- A violation as it is reported. -/
def diagnostic (v : Violation) : Diagnostic :=
  .onFirstLine .grammar v.issue v.explanation

end Violation

/-- Drop `ALL` or `DISTINCT` from the front. -/
def dropQuantifier : List Token → List Token
  | [] => []
  | t :: ts => if t.is "ALL" || t.is "DISTINCT" then ts else t :: ts

/-- Whether the tokens after an operator are a `SELECT`, perhaps quantified, perhaps in
    parentheses. -/
def operandIsSelect (ts : List Token) : Bool :=
  ((dropQuantifier ts).dropWhile (·.is "(")).head?.any (·.is "SELECT")

/-- The tokens after each occurrence of an operator. -/
def operands (op : SetOperation) : List Token → List (List Token)
  | [] => []
  | t :: ts => if t.is op.keyword then ts :: operands op ts else operands op ts

/-- What is wrong with the use of one operator. -/
def violationsOf (ts : List Token) (op : SetOperation) : List Violation :=
  let found := operands op ts
  (if 1 < found.length then [.repeated op found.length] else []) ++
  (found.filter fun operand => !operandIsSelect operand).map fun _ => .operandNotSelect op

/-- What is wrong with the set operations of a statement; only a `SELECT` has any. -/
def violations (statement : Statement) (ts : List Token) : List Violation :=
  if statement.kind = .select then all.flatMap (violationsOf ts) else []

/-- What is wrong with the set operations of a statement, as it is reported. -/
def diagnostics (statement : Statement) (ts : List Token) : List Diagnostic :=
  (violations statement ts).map Violation.diagnostic

end SetOperation

end QueryLint

/-
  QueryLint.Extended.Cte

  Common table expressions: the shape of a leading `WITH name AS (...)`. Only the
  first expression of a `WITH` is looked at.
-/
import QueryLint.Crash
import QueryLint.Diagnostic
import QueryLint.Grammar.Clause
import QueryLint.Statement

namespace QueryLint.Cte

/-- What can be wrong with a common table expression. -/
inductive Violation where
  | withoutAs
  | badName
  | withoutParens
  deriving DecidableEq, Repr

namespace Violation

/-- The label of a violation. -/
def issue : Violation → String
  | withoutAs => "Invalid CTE"
  | badName => "Invalid CTE name"
  | withoutParens => "Invalid CTE syntax"

/-- What a violation asks for. -/
def explanation : Violation → String
  | withoutAs => "WITH clause must include AS (SELECT ...)"
  | badName => "CTE name must be a valid identifier between WITH and AS"
  | withoutParens => "AS must be followed by (SELECT ...)"

/-- A violation as it is reported. -/
def diagnostic (v : Violation) : Diagnostic :=
  .onFirstLine .grammar v.issue v.explanation

end Violation

/-- The tokens between the first token and the one at index `stop`. There are none to name when
    `stop` is 0: the range would end before it starts. -/
def nameTokens (ts : List Token) (stop : Nat) : Except Crash (List Token) :=
  if stop = 0 then .error (.saying "slice index starts at 1 but ends at 0")
  else .ok ((ts.take stop).drop 1)

/-- Whether the tokens are one name: a single token that is not a parenthesis. -/
def isName : List Token → Bool
  | [t] => !t.is "("
  | _ => false

/-- What is wrong with a leading `WITH`; other statements pass. -/
def violations (statement : Statement) (ts : List Token) : Except Crash (List Violation) :=
  if statement.keyword ≠ "WITH" then .ok []
  else match Clause.find? ts "AS" with
    | none => .ok [.withoutAs]
    | some i => do
      let name ← nameTokens ts i
      return (if isName name then [] else [.badName]) ++
        (if Clause.isAt ts (i + 1) "(" then [] else [.withoutParens])

/-- What is wrong with a leading `WITH`, as it is reported. -/
def diagnostics (statement : Statement) (ts : List Token) : Except Crash (List Diagnostic) := do
  return (← violations statement ts).map Violation.diagnostic

end QueryLint.Cte

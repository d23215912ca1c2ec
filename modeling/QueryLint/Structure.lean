/-
  QueryLint.Structure

  Structural rules, which read the raw text of a query and no tokens. Each rule is
  applied whatever the others find.
-/
import QueryLint.Diagnostic
import QueryLint.Paren.Group

namespace QueryLint.Structure

/-- A broken structural rule. -/
inductive Violation where
  | unmatchedParens
  | oddQuotes
  | tooDeep (limit : Nat)
  deriving DecidableEq, Repr

namespace Violation

/-- The label of a violation. -/
def issue : Violation → String
  | unmatchedParens => "Unmatched parentheses"
  | oddQuotes => "Unclosed string literal"
  | tooDeep _ => "Subquery nested too deep"

/-- What a violation asks for. -/
def explanation : Violation → String
  | unmatchedParens => "Number of ( and ) must be equal"
  | oddQuotes => "String must start and end with single quotes"
  | tooDeep limit => s!"Maximum allowed nesting is {limit}"

/-- A violation as it is reported. -/
def diagnostic (v : Violation) : Diagnostic :=
  .onFirstLine .structural v.issue v.explanation

end Violation

/-- As many opening as closing parentheses, wherever they stand. -/
def parensMatch (cs : List Char) : Bool :=
  cs.count '(' == cs.count ')'

/-- An even number of single quotes, wherever they stand. -/
def quotesPair (cs : List Char) : Bool :=
  cs.count '\'' % 2 == 0

/-- The structural rules a text breaks, when subqueries may nest `limit` deep. -/
def violations (cs : List Char) (limit : Nat) : Except Crash (List Violation) := do
  let depth ← Paren.selectDepth cs
  return (if parensMatch cs then [] else [.unmatchedParens]) ++
    (if quotesPair cs then [] else [.oddQuotes]) ++
    (if depth ≤ limit then [] else [.tooDeep limit])

/-- The structural rules a query breaks, as they are reported. -/
def diagnostics (sql : String) (limit : Nat) : Except Crash (List Diagnostic) := do
  return (← violations sql.toList limit).map Violation.diagnostic

end QueryLint.Structure

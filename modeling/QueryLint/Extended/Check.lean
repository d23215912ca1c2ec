/-
  QueryLint.Extended.Check

  The checks that run only on request. They add diagnostics and change nothing that
  other checks report.
-/
import QueryLint.Extended.Cte
import QueryLint.Extended.SetOperation
import QueryLint.Extended.Subquery

namespace QueryLint.Extended

/-- Subqueries, then the leading `WITH`, then set operations. -/
def diagnostics (sql : String) (statement : Statement) (ts : List Token) :
    Except Crash (List Diagnostic) := do
  let ofSubqueries ← Subquery.diagnostics sql
  let ofCte ← Cte.diagnostics statement ts
  return ofSubqueries ++ ofCte ++ SetOperation.diagnostics statement ts

end QueryLint.Extended

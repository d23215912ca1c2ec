/-
  QueryLint.Dialect.Ansi

  Strict ANSI SQL: vendor extensions are reported.
-/
import QueryLint.Dialect.Basic

namespace QueryLint.Dialect.Ansi

/-- The keywords of vendor extensions. -/
def forbidden : List String :=
  ["LIMIT", "TOP", "ILIKE"]

/-- Only the standard kinds of statement are allowed. -/
def statementViolations (statement : Statement) : List Violation :=
  if Statement.standardKinds.contains statement.kind then []
  else [.statementNotAllowed statement.keyword]

/-- One violation for each token that is a forbidden keyword. -/
def clauseViolations (ts : List Token) : List Violation :=
  (ts.filter fun t => forbidden.contains t.text).map fun t => .forbiddenKeyword t.text

end Ansi

/-- Strict ANSI SQL. -/
def ansi : Dialect where
  name := "ansi"
  maxDepth := 2
  forbidden := Ansi.forbidden
  statementHook := fun statement _ =>
    .ok ((Ansi.statementViolations statement).map Violation.diagnostic)
  clausesHook := fun _ ts => .ok ((Ansi.clauseViolations ts).map Violation.diagnostic)

end QueryLint.Dialect

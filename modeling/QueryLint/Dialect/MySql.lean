/-
  QueryLint.Dialect.MySql

  MySQL: `LIMIT` is allowed, and needs an argument.
-/
import QueryLint.Dialect.Basic
import QueryLint.Grammar.Clause

namespace QueryLint.Dialect.MySql

/-- The first `LIMIT` must not be the last token. -/
def clauseViolations (ts : List Token) : List Violation :=
  match Clause.find? ts "LIMIT" with
  | none => []
  | some i => if i + 1 = ts.length then [.bareLimit] else []

end MySql

/-- MySQL. -/
def mysql : Dialect where
  name := "mysql"
  maxDepth := 4
  clausesHook := fun _ ts => .ok ((MySql.clauseViolations ts).map Violation.diagnostic)

end QueryLint.Dialect

/-
  QueryLint.Grammar.Violation

  What can be wrong with the clauses of a statement, and how it is worded.
-/
import QueryLint.Diagnostic

namespace QueryLint.Grammar

/-- A missing or malformed clause. -/
inductive Violation where
  | emptyQuery
  | unsupported (keyword : String)
  | selectWithoutFrom
  | emptySelectList
  | selectWithoutTable
  | emptyWhere
  | groupWithoutBy
  | emptyGroupBy
  | emptyHaving
  | havingWithoutGroup
  | malformedOrderBy
  | emptyLimit
  | malformedInsert
  | insertOrder
  | insertWithoutTable
  | openColumnList
  | malformedValues
  | updateWithoutSet
  | updateWithoutTable
  | emptySet
  | deleteWithoutFrom
  | deleteWithoutTable
  | ddlWithoutTable
  | ddlWithoutName
  | openTableDefinition
  | emptyTableDefinition
  deriving DecidableEq, Repr

namespace Violation

/-- The label of a violation. -/
def issue : Violation → String
  | emptyQuery => "Empty query"
  | unsupported _ => "Unsupported SQL"
  | selectWithoutFrom | deleteWithoutFrom => "Missing FROM clause"
  | emptySelectList => "Empty SELECT list"
  | selectWithoutTable | insertWithoutTable | updateWithoutTable | deleteWithoutTable =>
    "Missing table"
  | emptyWhere => "Empty WHERE clause"
  | groupWithoutBy => "Invalid GROUP BY"
  | emptyGroupBy => "Empty GROUP BY"
  | emptyHaving => "Empty HAVING clause"
  | havingWithoutGroup => "Invalid HAVING"
  | malformedOrderBy => "Invalid ORDER BY"
  | emptyLimit => "Empty LIMIT clause"
  | malformedInsert => "Invalid INSERT"
  | insertOrder => "Invalid INSERT order"
  | openColumnList => "Unclosed parentheses"
  | malformedValues => "Invalid VALUES"
  | updateWithoutSet => "Missing SET clause"
  | emptySet => "Empty SET clause"
  | ddlWithoutTable => "Invalid DDL"
  | ddlWithoutName => "Missing table name"
  | openTableDefinition => "Unclosed table definition"
  | emptyTableDefinition => "Empty table definition"

/-- What a violation asks for. -/
def explanation : Violation → String
  | emptyQuery => "No SQL statement found"
  | unsupported keyword => s!"Statement type '{keyword}' is not yet supported"
  | selectWithoutFrom => "SELECT must contain FROM"
  | emptySelectList => "SELECT must specify columns or * before FROM"
  | selectWithoutTable => "FROM must be followed by a table or subquery"
  | emptyWhere => "WHERE must be followed by a condition"
  | groupWithoutBy => "GROUP must be followed by BY"
  | emptyGroupBy => "GROUP BY must specify columns"
  | emptyHaving => "HAVING must be followed by a condition"
  | havingWithoutGroup => "HAVING requires GROUP BY"
  | malformedOrderBy => "ORDER must be followed by BY and at least one column"
  | emptyLimit => "LIMIT must be followed by a number"
  | malformedInsert => "INSERT must use INTO and VALUES/VALUE"
  | insertOrder => "INTO must come before VALUES"
  | insertWithoutTable => "INTO must be followed by a table name"
  | openColumnList => "Column list must be properly enclosed"
  | malformedValues => "VALUES must be followed by (...)"
  | updateWithoutSet => "UPDATE must contain SET"
  | updateWithoutTable => "UPDATE must specify a table before SET"
  | emptySet => "SET must be followed by column assignments"
  | deleteWithoutFrom => "DELETE must use FROM"
  | deleteWithoutTable => "FROM must be followed by a table name"
  | ddlWithoutTable => "DDL must specify TABLE"
  | ddlWithoutName => "TABLE must be followed by an identifier"
  | openTableDefinition => "CREATE TABLE must have properly closed column definitions"
  | emptyTableDefinition => "CREATE TABLE must define at least one column"

/-- A violation as it is reported. -/
def diagnostic (v : Violation) : Diagnostic :=
  .onFirstLine .grammar v.issue v.explanation

end Violation

end QueryLint.Grammar

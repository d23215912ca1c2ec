/-
  QueryLint.Grammar.Check

  The clause grammar of each kind of statement. Required keywords are looked up by
  first occurrence anywhere in the token sequence and their positions compared; no
  syntax tree is built.
-/
import QueryLint.Grammar.Clause
import QueryLint.Grammar.Violation
import QueryLint.Statement

namespace QueryLint.Grammar

open QueryLint.Clause

/-- The violation, if the condition fails to hold. -/
def require (ok : Bool) (v : Violation) : List Violation :=
  if ok then [] else [v]

/-- `WHERE`, wherever it stands, needs something after it. -/
def whereViolations (ts : List Token) : List Violation :=
  match find? ts "WHERE" with
  | none => []
  | some i => require (hasAfter ts i) .emptyWhere

/-- `FROM` needs a select list before it and a table after it. -/
def fromViolations (ts : List Token) : List Violation :=
  match find? ts "FROM" with
  | none => [.selectWithoutFrom]
  | some i => require (1 < i) .emptySelectList ++ require (hasAfter ts i) .selectWithoutTable

/-- `GROUP` needs `BY` and then a column. -/
def groupViolations (ts : List Token) : List Violation :=
  match find? ts "GROUP" with
  | none => []
  | some i =>
    if !isAt ts (i + 1) "BY" then [.groupWithoutBy]
    else require (hasAfter ts (i + 1)) .emptyGroupBy

/-- `HAVING` needs an earlier `GROUP` and then a condition. -/
def havingViolations (ts : List Token) : List Violation :=
  match find? ts "HAVING" with
  | none => []
  | some i =>
    match find? ts "GROUP" with
    | none => [.havingWithoutGroup]
    | some g => if g < i then require (hasAfter ts i) .emptyHaving else [.havingWithoutGroup]

/-- `ORDER` needs `BY` and then a column. -/
def orderViolations (ts : List Token) : List Violation :=
  match find? ts "ORDER" with
  | none => []
  | some i => require (isAt ts (i + 1) "BY" && hasAfter ts (i + 1)) .malformedOrderBy

/-- `LIMIT` needs something after it. -/
def limitViolations (ts : List Token) : List Violation :=
  match find? ts "LIMIT" with
  | none => []
  | some i => require (hasAfter ts i) .emptyLimit

/-- The clauses of a `SELECT`. -/
def selectViolations (ts : List Token) : List Violation :=
  fromViolations ts ++ whereViolations ts ++ groupViolations ts ++ havingViolations ts ++
    orderViolations ts ++ limitViolations ts

/-- The index of the keyword that introduces the inserted values: the first `VALUES`, or the first
    `VALUE` where `VALUES` does not occur. -/
def valuesIndex? (ts : List Token) : Option Nat :=
  (find? ts "VALUES").or (find? ts "VALUE")

/-- Whether the column list at index `i` is closed; there need not be one. The search for the `)`
    that closes the `(` at an index is given, with whatever effects it has, so that it can be seen
    where it is asked. -/
def columnsAsking {m : Type → Type} [Monad m] (closing? : Nat → m (Option Nat))
    (ts : List Token) (i : Nat) : m Bool :=
  if isAt ts i "(" then Option.isSome <$> closing? i else pure true

/-- The clauses of an `INSERT`, with the search for a closing parenthesis given. -/
def insertAsking {m : Type → Type} [Monad m] (closing? : Nat → m (Option Nat))
    (ts : List Token) : m (List Violation) :=
  match find? ts "INTO", valuesIndex? ts with
  | some into, some values => do
    -- An optional column list stands right after the table name.
    let closed ← columnsAsking closing? ts (into + 2)
    return require (into ≤ values) .insertOrder ++
      require (hasAfter ts into) .insertWithoutTable ++
      require closed .openColumnList ++
      require (isAt ts (values + 1) "(") .malformedValues
  | _, _ => return [.malformedInsert]

/-- The clauses of an `INSERT`. -/
def insertViolations (ts : List Token) : List Violation :=
  Id.run (insertAsking (fun i => pure (closingParen? ts i)) ts)

/-- The clauses of an `UPDATE`. -/
def updateViolations (ts : List Token) : List Violation :=
  match find? ts "SET" with
  | none => [.updateWithoutSet]
  | some i =>
    (if i ≤ 1 then [.updateWithoutTable] else require (hasAfter ts i) .emptySet) ++
      whereViolations ts

/-- The clauses of a `DELETE`. -/
def deleteViolations (ts : List Token) : List Violation :=
  match find? ts "FROM" with
  | none => [.deleteWithoutFrom]
  | some i => require (hasAfter ts i) .deleteWithoutTable ++ whereViolations ts

/-- The column definitions of a `CREATE TABLE`, which start two tokens after `TABLE`. -/
def definitionAsking {m : Type → Type} [Monad m] (closing? : Nat → m (Option Nat))
    (ts : List Token) (start : Nat) : m (List Violation) := do
  if isAt ts start "(" then
    match ← closing? start with
    | none => return [.openTableDefinition]
    | some close => return require (close ≠ start + 1) .emptyTableDefinition
  else return []

/-- The clauses of a `CREATE`, `DROP` or `ALTER`, with the search for a closing parenthesis
    given. -/
def ddlAsking {m : Type → Type} [Monad m] (closing? : Nat → m (Option Nat))
    (kind : Statement.Kind) (ts : List Token) : m (List Violation) :=
  match find? ts "TABLE" with
  | none => return [.ddlWithoutTable]
  | some i => do
    let unnamed := require (hasAfter ts i) .ddlWithoutName
    if kind = .create then return unnamed ++ (← definitionAsking closing? ts (i + 2))
    else return unnamed

/-- The clauses of a `CREATE`, `DROP` or `ALTER`. -/
def ddlViolations (kind : Statement.Kind) (ts : List Token) : List Violation :=
  Id.run (ddlAsking (fun i => pure (closingParen? ts i)) kind ts)

/-- The violations of the clause grammar that the statement of these tokens has to keep. -/
def violations (ts : List Token) : List Violation :=
  match Statement.classify? ts with
  | none => [.emptyQuery]
  | some statement =>
    match statement.kind with
    | .select => selectViolations ts
    | .insert => insertViolations ts
    | .update => updateViolations ts
    | .delete => deleteViolations ts
    | .create | .drop | .alter => ddlViolations statement.kind ts
    | .unknown => [.unsupported statement.keyword]

/-- The violations of the clause grammar, as they are reported. -/
def diagnostics (ts : List Token) : List Diagnostic :=
  (violations ts).map Violation.diagnostic

end QueryLint.Grammar

/-
  QueryLint.Dialect.Basic

  Dialects: what a variant of SQL allows, and the checks it adds to the general
  grammar. A dialect is data, so a new one is a new value.
-/
import QueryLint.Crash
import QueryLint.Diagnostic
import QueryLint.Statement

namespace QueryLint

/-- A check of a dialect: it answers with diagnostics, or breaks down. -/
abbrev Dialect.Hook :=
  Statement → List Token → Except Crash (List Diagnostic)

/-- A hook that finds nothing. -/
def Dialect.quiet : Dialect.Hook :=
  fun _ _ => .ok []

/-- A variant of SQL. -/
structure Dialect where
  name : String
  /-- The kinds of statement it accepts. -/
  allowed : List Statement.Kind := Statement.standardKinds
  /-- How deep subqueries may nest. -/
  maxDepth : Nat
  /-- Keywords that must not appear anywhere. -/
  forbidden : List String := []
  /-- Checks the statement itself. -/
  statementHook : Dialect.Hook := Dialect.quiet
  /-- Checks the use of clauses. -/
  clausesHook : Dialect.Hook := Dialect.quiet
  /-- Checks data definition. -/
  ddlHook : Dialect.Hook := Dialect.quiet

namespace Dialect

/-- What a dialect can object to. -/
inductive Violation where
  | statementNotAllowed (keyword : String)
  | forbiddenKeyword (text : String)
  | bareLimit
  deriving DecidableEq, Repr

namespace Violation

/-- The label of a violation. -/
def issue : Violation → String
  | statementNotAllowed _ => "Invalid statement"
  | forbiddenKeyword _ => "Non-ANSI feature"
  | bareLimit => "Invalid LIMIT"

/-- What a violation asks for. -/
def explanation : Violation → String
  | statementNotAllowed keyword => s!"{keyword} is not allowed in ANSI SQL"
  | forbiddenKeyword text => s!"{text} is not supported in ANSI SQL"
  | bareLimit => "LIMIT must be followed by a number"

/-- A violation as it is reported. -/
def diagnostic (v : Violation) : Diagnostic :=
  .onFirstLine .dialect v.issue v.explanation

end Violation

/-- The hooks of a dialect, by the order they run in. -/
inductive HookPoint where
  | statement
  | clauses
  | ddl
  deriving DecidableEq, Repr

/-- A dialect without checks of its own, in which one hook may break down. -/
def plain (name : String) (maxDepth : Nat) (fault : Option (HookPoint × Crash)) : Dialect :=
  let hook (point : HookPoint) : Hook := fun _ _ =>
    match fault with
    | some (faulty, crash) => if faulty = point then .error crash else .ok []
    | none => .ok []
  { name, maxDepth
    statementHook := hook .statement
    clausesHook := hook .clauses
    ddlHook := hook .ddl }

/-- The diagnostics of all three hooks; the first that breaks down ends the check. -/
def diagnostics (d : Dialect) (statement : Statement) (ts : List Token) :
    Except Crash (List Diagnostic) := do
  let ofStatement ← d.statementHook statement ts
  let ofClauses ← d.clausesHook statement ts
  let ofDdl ← d.ddlHook statement ts
  return ofStatement ++ ofClauses ++ ofDdl

end Dialect

end QueryLint

/-
  QueryLint.Checker

  Checking a query against a dialect: the structural rules, the clause grammar, the
  hooks of the dialect and, on request, the extended checks all run and their
  diagnostics are joined in that order. Only a text that is not tokens to its end, or
  a check that breaks down, stops a query early.
-/
import QueryLint.Dialect.Basic
import QueryLint.Extended.Check
import QueryLint.Grammar.Check
import QueryLint.Report.Basic
import QueryLint.Structure
import QueryLint.Token.Lexer

namespace QueryLint

/-- What ends the check of a query early. -/
inductive Failure where
  | lexical (error : Token.LexError)
  | crash (cause : Crash)
  deriving DecidableEq, Repr

/-- The one diagnostic reported for a query whose check ended early. -/
def Failure.diagnostic : Failure → Diagnostic
  | lexical error => ⟨error.line, "Syntax Error", error.message, .lexical⟩
  | crash cause => .onFirstLine .fatal "Fatal error" cause.message

/-- How queries are checked. -/
structure Checker where
  dialect : Dialect
  /-- Whether the extended checks run. -/
  extended : Bool

namespace Checker

/-- The diagnostics of the stages after the text is tokens of a statement. -/
def stages (c : Checker) (sql : String) (statement : Statement) (ts : List Token) :
    Except Crash (List Diagnostic) := do
  let ofStructure ← Structure.diagnostics sql c.dialect.maxDepth
  let ofDialect ← c.dialect.diagnostics statement ts
  let ofExtended ← if c.extended then Extended.diagnostics sql statement ts else pure []
  return ofStructure ++ Grammar.diagnostics ts ++ ofDialect ++ ofExtended

/-- Check a query. -/
def check (c : Checker) (sql : String) : Except Failure (List Diagnostic) :=
  match Token.tokenize sql with
  | .error error => .error (.lexical error)
  | .ok ts =>
    match Statement.classify? ts with
    | none => .ok [Grammar.Violation.emptyQuery.diagnostic]
    | some statement => (c.stages sql statement ts).mapError .crash

/-- The diagnostics of a query; a check that ended early gives one. -/
def diagnose (c : Checker) (sql : String) : List Diagnostic :=
  match c.check sql with
  | .ok diagnostics => diagnostics
  | .error failure => [failure.diagnostic]

/-- The report on the query at position `id` of a run. -/
def review (c : Checker) (id : Nat) (query : Query) : Report :=
  .ofDiagnostics id query (c.diagnose query.sql)

/-! ## Runs -/

/-- Review queries of which the first has position `id`, hand each report to `sink` and count it.
    The sink's failure, if its monad has failures, ends the run. -/
def runFrom {m : Type → Type} [Monad m] (c : Checker) (sink : Report → m Unit) (id : Nat)
    (summary : Summary) : List Query → m Summary
  | [] => pure summary
  | query :: queries => do
    let report := c.review id query
    sink report
    c.runFrom sink (id + 1) (summary.record report) queries

/-- Review queries in order, counting positions from 1. -/
def run {m : Type → Type} [Monad m] (c : Checker) (timestamp : String) (sink : Report → m Unit)
    (queries : List Query) : m Summary :=
  c.runFrom sink 1 (.empty c.dialect.name timestamp) queries

end Checker

end QueryLint

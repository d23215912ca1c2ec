/-
  QueryLint.Extended.Subquery

  Subqueries: parenthesised groups of raw query text that begin with `SELECT`.
-/
import QueryLint.Diagnostic
import QueryLint.Paren.Group
import QueryLint.Text.Blank

namespace QueryLint

open QueryLint.Text

/-- A parenthesised group whose text begins with `SELECT`. -/
structure Subquery where
  /-- The octet offset of the opening parenthesis. -/
  start : Nat
  /-- The octet offset of the closing parenthesis. -/
  stop : Nat
  /-- The text inside, trimmed. -/
  text : List Char
  deriving DecidableEq, Repr

namespace Subquery

/-- The subquery a group makes, if its trimmed text begins with `SELECT` in any case. -/
def ofGroup? (cs : List Char) (g : Paren.Group) : Except Crash (Option Subquery) := do
  let body := trim (← g.body cs)
  return if beginsWithSelect body then some ⟨g.start, g.stop, body⟩ else none

/-- The subqueries among groups of a text. -/
def ofGroups (cs : List Char) : List Paren.Group → Except Crash (List Subquery)
  | [] => .ok []
  | g :: gs => do
    let first ← ofGroup? cs g
    return first.toList ++ (← ofGroups cs gs)

/-- The subqueries of a text at every depth, in the order they close. -/
def all (cs : List Char) : Except Crash (List Subquery) :=
  ofGroups cs (Paren.groups cs)

/-- Whether one subquery lies strictly inside another. -/
def encloses (outer inner : Subquery) : Bool :=
  outer.start < inner.start && inner.stop < outer.stop

/-- Subqueries nested deeper than this are reported. -/
def recommendedNesting : Nat := 4

/-- How many of the subqueries a subquery is nested in, itself included. -/
def level (subqueries : List Subquery) (inner : Subquery) : Nat :=
  1 + subqueries.countP (·.encloses inner)

/-- The deepest level at which one of the subqueries is nested. -/
def deepest (subqueries : List Subquery) : Nat :=
  (subqueries.map (level subqueries)).foldl max 0

/-- What can be wrong with subqueries. -/
inductive Violation where
  | unmatchedParens
  | oddQuotes
  | tooDeep
  deriving DecidableEq, Repr

namespace Violation

/-- The label of a violation. -/
def issue : Violation → String
  | unmatchedParens => "Unmatched parentheses in subquery"
  | oddQuotes => "Unclosed string in subquery"
  | tooDeep => "Excessive subquery nesting"

/-- What a violation asks for. -/
def explanation : Violation → String
  | unmatchedParens => "Subquery has unbalanced parentheses"
  | oddQuotes => "Subquery has unclosed string literal"
  | tooDeep => s!"Nesting more than {recommendedNesting} levels deep is not recommended"

/-- A violation as it is reported. -/
def diagnostic (v : Violation) : Diagnostic :=
  .onFirstLine .grammar v.issue v.explanation

end Violation

/-- What is wrong with the text of one subquery, by plain counts of its characters. -/
def ownViolations (s : Subquery) : List Violation :=
  (if s.text.count '(' == s.text.count ')' then [] else [.unmatchedParens]) ++
  (if s.text.count '\'' % 2 == 0 then [] else [.oddQuotes])

/-- What is wrong with subqueries: each by itself, then their nesting. -/
def violationsOf (subqueries : List Subquery) : List Violation :=
  subqueries.flatMap ownViolations ++
  (if deepest subqueries ≤ recommendedNesting then [] else [.tooDeep])

/-- What is wrong with the subqueries of a query, as it is reported. -/
def diagnostics (sql : String) : Except Crash (List Diagnostic) := do
  return (violationsOf (← all sql.toList)).map Violation.diagnostic

end Subquery

end QueryLint

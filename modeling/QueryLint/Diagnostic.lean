/-
  QueryLint.Diagnostic

  Diagnostics: what is reported about a query. Issue labels are part of the report
  format, so each stage lists its violations as causes and words them in one place.
-/
namespace QueryLint

/-- The stage a diagnostic comes from. -/
inductive Category where
  /-- The text holds a character that begins no token. -/
  | lexical
  /-- The raw text breaks a balance, closure or nesting rule. -/
  | structural
  /-- A clause is missing or malformed. -/
  | grammar
  /-- The dialect forbids something. -/
  | dialect
  /-- Checking the query failed unexpectedly. -/
  | fatal
  deriving DecidableEq, Repr

namespace Category

/-- The stable name of a category. -/
def name : Category → String
  | lexical => "lexical"
  | structural => "structural"
  | grammar => "grammar"
  | dialect => "dialect"
  | fatal => "fatal"

/-- Every category. -/
def all : List Category :=
  [lexical, structural, grammar, dialect, fatal]

/-- The category with this name. -/
def ofName? (name : String) : Option Category :=
  all.find? fun category => category.name == name

/-- A category is found again by its name. -/
@[simp]
theorem ofName?_name (c : Category) : ofName? c.name = some c := by
  cases c <;> decide +kernel

end Category

/-- One reported issue of a query. -/
structure Diagnostic where
  /-- The line, counted from 1 within the query. -/
  line : Nat
  /-- A short label. -/
  issue : String
  explanation : String
  category : Category
  deriving DecidableEq, Repr

namespace Diagnostic

/-- A diagnostic about the query as a whole, which is reported on its first line. -/
def onFirstLine (category : Category) (issue explanation : String) : Diagnostic :=
  ⟨1, issue, explanation, category⟩

/-- A diagnostic in one line of text. -/
def display (d : Diagnostic) : String :=
  s!"line {d.line}: {d.issue}: {d.explanation}"

end Diagnostic

end QueryLint

/-
  QueryLint.Report.Basic

  Reports: the outcome of checking one query, and the totals of a run.
-/
import QueryLint.Diagnostic

namespace QueryLint

/-- A query to check. -/
structure Query where
  /-- Where it came from, usually a file name. -/
  source : String
  sql : String
  deriving DecidableEq, Repr

/-- The outcome of checking a query. -/
inductive Status where
  | success
  | failed
  deriving DecidableEq, Repr

namespace Status

/-- The name of an outcome. -/
def name : Status → String
  | success => "SUCCESS"
  | failed => "FAILED"

/-- Both outcomes. -/
def all : List Status :=
  [success, failed]

/-- The outcome with this name. -/
def ofName? (name : String) : Option Status :=
  all.find? fun status => status.name == name

/-- An outcome is found again by its name. -/
@[simp]
theorem ofName?_name (s : Status) : ofName? s.name = some s := by
  cases s <;> decide +kernel

end Status

/-- The outcome of checking one query, with its diagnostics in the order found. -/
structure Report where
  /-- The position of the query in its run, counted from 1. -/
  id : Nat
  source : String
  sql : String
  status : Status
  diagnostics : List Diagnostic
  deriving DecidableEq, Repr

namespace Report

/-- The report on a query with these diagnostics; it failed if there is any. -/
def ofDiagnostics (id : Nat) (query : Query) (diagnostics : List Diagnostic) : Report :=
  ⟨id, query.source, query.sql, if diagnostics.isEmpty then .success else .failed, diagnostics⟩

/-- Whether the query passed. -/
def isSuccess (r : Report) : Bool :=
  r.status == .success

end Report

/-- The version of the report format. -/
structure FormatVersion where
  major : Nat
  minor : Nat
  deriving DecidableEq, Repr

namespace FormatVersion

/-- The version written now. -/
def current : FormatVersion :=
  ⟨1, 0⟩

/-- A version in text. -/
def display (v : FormatVersion) : String :=
  s!"{v.major}.{v.minor}"

end FormatVersion

/-- The totals of a run. -/
structure Summary where
  version : FormatVersion
  timestamp : String
  /-- The dialect of the run. -/
  dialect : String
  processed : Nat
  passed : Nat
  failed : Nat
  deriving DecidableEq, Repr

namespace Summary

/-- The totals before any query. -/
def empty (dialect timestamp : String) : Summary :=
  ⟨.current, timestamp, dialect, 0, 0, 0⟩

/-- Count one report. -/
def record (s : Summary) (r : Report) : Summary :=
  { s with
    processed := s.processed + 1
    passed := if r.isSuccess then s.passed + 1 else s.passed
    failed := if r.isSuccess then s.failed else s.failed + 1 }

/-- Whether a query failed. -/
def hasFailures (s : Summary) : Bool :=
  0 < s.failed

end Summary

end QueryLint

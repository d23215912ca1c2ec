/-
  QueryLint.Report.Json

  Diagnostics, queries, reports and summaries as JSON documents. The names of the
  members are the report format.
-/
import QueryLint.Json.Parser
import QueryLint.Json.Printer
import QueryLint.Report.Basic

namespace QueryLint

/-- Counters and lines are below this. -/
def counterBound : Nat := Nat.pow 2 64

/-- The parts of a format version are below this. -/
def versionBound : Nat := Nat.pow 2 32

namespace Diagnostic

/-- The document of a diagnostic. -/
def toJson (d : Diagnostic) : Json :=
  .ofMembers [("line", .ofNat d.line), ("issue", .ofText d.issue),
    ("explanation", .ofText d.explanation), ("category", .ofText d.category.name)]

/-- The diagnostic a document holds. -/
def ofJson? (j : Json) : Option Diagnostic := do
  match ← j.fields? ["line", "issue", "explanation", "category"] with
  | [some line, some issue, some explanation, some category] =>
    return ⟨← line.toNat? counterBound, ← issue.toText?, ← explanation.toText?,
      ← category.variantName?.bind Category.ofName?⟩
  | _ => none

end Diagnostic

namespace Query

/-- The document of a query. -/
def toJson (q : Query) : Json :=
  .ofMembers [("source_label", .ofText q.source), ("sql_text", .ofText q.sql)]

/-- The query a document holds. -/
def ofJson? (j : Json) : Option Query := do
  match ← j.fields? ["source_label", "sql_text"] with
  | [some source, some sql] => return ⟨← source.toText?, ← sql.toText?⟩
  | _ => none

end Query

namespace Report

/-- The document of a report. -/
def toJson (r : Report) : Json :=
  .ofMembers [("q_id", .ofNat r.id), ("source", .ofText r.source), ("sql", .ofText r.sql),
    ("status", .ofText r.status.name), ("errors", .array (r.diagnostics.map Diagnostic.toJson))]

/-- The report a document holds. Its status is taken as it is, also where it disagrees with the
    diagnostics. -/
def ofJson? (j : Json) : Option Report := do
  match ← j.fields? ["q_id", "source", "sql", "status", "errors"] with
  | [some id, some source, some sql, some status, some diagnostics] =>
    return ⟨← id.toNat? counterBound, ← source.toText?, ← sql.toText?,
      ← status.variantName?.bind Status.ofName?, ← diagnostics.toList? Diagnostic.ofJson?⟩
  | _ => none

/-- A report in text, as it is written to a file. -/
def print (r : Report) : String :=
  r.toJson.print

end Report

namespace FormatVersion

/-- The document of a version. -/
def toJson (v : FormatVersion) : Json :=
  .ofMembers [("major", .ofNat v.major), ("minor", .ofNat v.minor)]

/-- The version a document holds. -/
def ofJson? (j : Json) : Option FormatVersion := do
  match ← j.fields? ["major", "minor"] with
  | [some major, some minor] => return ⟨← major.toNat? versionBound, ← minor.toNat? versionBound⟩
  | _ => none

end FormatVersion

namespace Summary

/-- The document of a summary. -/
def toJson (s : Summary) : Json :=
  .ofMembers [("version", s.version.toJson), ("timestamp", .ofText s.timestamp),
    ("dialect", .ofText s.dialect), ("processed", .ofNat s.processed), ("passed", .ofNat s.passed),
    ("failed", .ofNat s.failed)]

/-- The summary a document holds. -/
def ofJson? (j : Json) : Option Summary := do
  match ← j.fields? ["version", "timestamp", "dialect", "processed", "passed", "failed"] with
  | [some version, some timestamp, some dialect, some processed, some passed, some failed] =>
    return ⟨← FormatVersion.ofJson? version, ← timestamp.toText?, ← dialect.toText?,
      ← processed.toNat? counterBound, ← passed.toNat? counterBound, ← failed.toNat? counterBound⟩
  | _ => none

/-- A summary in text, as it is written to a file. -/
def print (s : Summary) : String :=
  s.toJson.print

end Summary

end QueryLint

/-
  QueryLint.Command.Screen

  What a run shows: a line per query, the summary, the list of dialects.
-/
import QueryLint.Command.Style
import QueryLint.Dialect.Registry
import QueryLint.Report.Basic
import QueryLint.Text.Pieces

namespace QueryLint.Command

/-- A text as lines that each end with a line feed. -/
def asLines (lines : List String) : String :=
  "".intercalate (lines.map (· ++ "\n"))

/-- The line for a diagnostic. -/
def diagnosticLine (colours : Bool) (d : Diagnostic) : String :=
  "    [" ++ tint colours .yellow d.category.name ++ "] " ++ d.display

/-- The lines for a report: a tick or a cross, and the diagnostics. -/
def reportLines (colours : Bool) (r : Report) : List String :=
  let mark := if r.isSuccess then tint colours .green "✓" else tint colours .red "✗"
  (mark ++ s!" #{r.id} {r.source}") ::
    if r.isSuccess then [] else r.diagnostics.map (diagnosticLine colours)

/-- A line across the screen. -/
def rule (colours : Bool) : String :=
  tint colours .brightBlue (String.ofList (List.replicate 60 '='))

/-- The number of failures, which stands out if there are any. -/
def failedCount (colours : Bool) (failed : Nat) : String :=
  if 0 < failed then paint colours ⟨true, some .red⟩ (toString failed)
  else tint colours .green (toString failed)

/-- The lines that close a run whose reports are in a directory. -/
def summaryLines (colours : Bool) (s : Summary) (dir : String) : List String :=
  ["", rule colours, paint colours ⟨true, some .brightBlue⟩ "SQL Validation Report",
    rule colours, "",
    "Dialect:   " ++ s.dialect, "Results:   " ++ dir, "",
    paint colours ⟨true, none⟩ "Summary:", s!"  Processed: {s.processed}",
    "  Passed:    " ++ tint colours .green (toString s.passed),
    "  Failed:    " ++ failedCount colours s.failed, ""] ++
  (if 0 < s.processed && !s.hasFailures then
    [paint colours ⟨true, some .green⟩ "✓ All queries passed!"] else []) ++
  [rule colours]

/-- Names with commas between them, or a hyphen for none. -/
def commaList (names : List String) : String :=
  if names.isEmpty then "-" else ", ".intercalate names

/-- The lines for a dialect. -/
def dialectLines (colours : Bool) (d : Dialect) : List String :=
  ["  " ++ paint colours ⟨true, some .green⟩ d.name,
    s!"    Max subquery depth: {d.maxDepth}",
    "    Statements:         " ++ ", ".intercalate (d.allowed.map (·.name)),
    "    Forbidden keywords: " ++ commaList d.forbidden, ""]

/-- The lines for all dialects. -/
def dialectsLines (colours : Bool) : List String :=
  [paint colours ⟨true, none⟩ "Available dialects", ""] ++
    Dialect.builtin.flatMap (dialectLines colours)

/-! ## Failures -/

/-- The lines of a message, each after the first indented. -/
def indented (margin first message : String) : String :=
  first ++ ("\n" ++ margin).intercalate ((Text.pieces '\n' message.toList).map String.ofList)

/-- The lines for causes, numbered if there are several. -/
def causeLines (causes : List String) : List String :=
  match causes with
  | [cause] => [indented "    " "    " cause]
  | causes => causes.mapIdx fun i cause => indented "       " s!"    {i}: " cause

/-- The lines for a failure that ends the program. -/
def failureLines (message : String) (causes : List String) : List String :=
  ("Error: " ++ message) ::
    if causes.isEmpty then [] else ["", "Caused by:"] ++ causeLines causes

end QueryLint.Command

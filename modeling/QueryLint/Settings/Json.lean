/-
  QueryLint.Settings.Json

  Settings as a JSON document.
-/
import QueryLint.Json.Parser
import QueryLint.Json.Printer
import QueryLint.Settings.Basic

namespace QueryLint.Settings

/-- The document of settings; the summary file is left out if there is none. -/
def toJson (s : Settings) : Json :=
  .ofMembers ([("dialect", .ofText s.dialect), ("split", .ofText s.split.name),
      ("output_dir", .ofText s.outputDir), ("extended_checks", .bool s.extendedChecks),
      ("fail_on_invalid", .bool s.failOnInvalid)] ++
    s.summaryFile.toList.map (fun path => ("summary_file", .ofText path)) ++
    [("input", .ofMembers [("skip_files", .array (s.skipFiles.map .ofText))])])

/-- A field that may be missing, in which case it has its default. -/
def orDefault {α : Type} (default : α) (read : Json → Option α) : Option Json → Option α
  | none => some default
  | some j => read j

/-- A path or `null` for none. -/
def optionalPath? : Json → Option (Option String)
  | .null => some none
  | j => j.toText?.map some

/-- The rules for input, which hold the skip patterns. -/
def inputRules? (j : Json) : Option (List String) := do
  match ← j.fields? ["skip_files"] with
  | [skipFiles] => orDefault omittedPatterns (·.toList? Json.toText?) skipFiles
  | _ => none

/-- The settings a document holds; every missing field has its default. -/
def ofJson? (j : Json) : Option Settings := do
  match ← j.fields? ["dialect", "split", "output_dir", "extended_checks", "fail_on_invalid",
      "summary_file", "input"] with
  | [dialect, split, outputDir, extendedChecks, failOnInvalid, summaryFile, input] =>
    return {
      dialect := ← orDefault omitted.dialect Json.toText? dialect
      split := ← orDefault omitted.split (·.variantName?.bind SplitMode.ofName?) split
      outputDir := ← orDefault omitted.outputDir Json.toText? outputDir
      extendedChecks := ← orDefault omitted.extendedChecks Json.toBool? extendedChecks
      failOnInvalid := ← orDefault omitted.failOnInvalid Json.toBool? failOnInvalid
      summaryFile := ← orDefault omitted.summaryFile optionalPath? summaryFile
      skipFiles := ← orDefault omitted.skipFiles inputRules? input }
  | _ => none

end QueryLint.Settings

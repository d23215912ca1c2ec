/-
  QueryLint.Settings.Toml

  Settings as a TOML document, the form of a settings file.
-/
import QueryLint.Settings.Basic
import QueryLint.Toml.Parser
import QueryLint.Toml.Printer

namespace QueryLint.Settings

open QueryLint.Toml

/-! ## Writing -/

/-- The settings a file can hold, one by one. -/
inductive Field where
  | dialect
  | split
  | outputDir
  | extendedChecks
  | failOnInvalid
  | summaryFile
  | skipFiles
  deriving DecidableEq, Repr

/-- The settings in the order they are written. -/
def Field.all : List Field :=
  [.dialect, .split, .outputDir, .extendedChecks, .failOnInvalid, .summaryFile, .skipFiles]

/-- How a setting is written. A missing summary file is not written; the skip patterns stand in a
    table of their own. -/
def writeField (s : Settings) : Field → List Char
  | .dialect => writeEntry "dialect" (writeQuoted s.dialect.toList)
  | .split => writeEntry "split" (writeQuoted s.split.name.toList)
  | .outputDir => writeEntry "output_dir" (writeQuoted s.outputDir.toList)
  | .extendedChecks => writeEntry "extended_checks" (writeBoolean s.extendedChecks)
  | .failOnInvalid => writeEntry "fail_on_invalid" (writeBoolean s.failOnInvalid)
  | .summaryFile =>
    match s.summaryFile with
    | some path => writeEntry "summary_file" (writeQuoted path.toList)
    | none => []
  | .skipFiles => writeHeader "input" ++ writeEntry "skip_files" (writeTexts s.skipFiles)

/-- The document of some of the settings. -/
def writeFields (s : Settings) (fields : List Field) : String :=
  String.ofList (fields.flatMap s.writeField)

/-- The document of settings. -/
def toToml (s : Settings) : String :=
  s.writeFields Field.all

/-! ## Reading -/

/-- Why a document holds no settings. -/
inductive Fault where
  | notToml
  | badSetting (key : String)
  deriving DecidableEq, Repr

/-- What is reported about a document that holds no settings. -/
def Fault.message : Fault → String
  | notToml => "Parse error: the document is not valid TOML"
  | badSetting key => s!"Parse error: invalid value for '{key}'"

/-- A text. -/
def text? : Value → Option String
  | .string text => some text
  | _ => none

/-- A truth value. -/
def boolean? : Value → Option Bool
  | .boolean b => some b
  | _ => none

/-- Whether a value is an empty list or table. -/
def isEmptyValue : Value → Bool
  | .array [] => true
  | .table [] => true
  | _ => false

/-- The mode a value names: as a text, or as the only key of a table with an empty value. -/
def splitMode? : Value → Option SplitMode
  | .string name => SplitMode.ofName? name
  | .table [(name, value)] => if isEmptyValue value then SplitMode.ofName? name else none
  | _ => none

/-- A list of texts. -/
def texts? : Value → Option (List String)
  | .array items => items.mapM text?
  | _ => none

/-- The setting under a key, or its default. -/
def setting {α : Type} (entries : List (String × Value)) (key : String) (default : α)
    (read : Value → Option α) : Except Fault α :=
  match entries.lookup key with
  | none => .ok default
  | some value =>
    match read value with
    | some a => .ok a
    | none => .error (.badSetting key)

/-- The skip patterns of the rules for input: a table, or a list that starts with them. A date or a
    time counts as a table without any. -/
def inputSkipFiles? : Value → Option (List String)
  | .table entries =>
    match entries.lookup "skip_files" with
    | none => some omittedPatterns
    | some value => texts? value
  | .array [] => some omittedPatterns
  | .array (value :: _) => texts? value
  | .dateTime => some omittedPatterns
  | _ => none

/-- The settings a table holds; every missing one has its default and unknown keys are passed
    over. -/
def ofEntries (entries : List (String × Value)) : Except Fault Settings := do
  return {
    dialect := ← setting entries "dialect" omitted.dialect text?
    split := ← setting entries "split" omitted.split splitMode?
    outputDir := ← setting entries "output_dir" omitted.outputDir text?
    extendedChecks := ← setting entries "extended_checks" omitted.extendedChecks boolean?
    failOnInvalid := ← setting entries "fail_on_invalid" omitted.failOnInvalid boolean?
    summaryFile := ← setting entries "summary_file" omitted.summaryFile fun v => (text? v).map some
    skipFiles := ← setting entries "input" omitted.skipFiles inputSkipFiles? }

/-- The settings a document holds. -/
def ofToml (text : String) : Except Fault Settings :=
  match Toml.parse? text with
  | none => .error .notToml
  | some entries => ofEntries entries

end QueryLint.Settings

/-
  QueryLint.Settings.Basic

  Settings of a run: what a settings file can say, what holds without one (`default`), and what
  each setting is in a file that leaves it out (`omitted`).
-/
import QueryLint.Text.Letter

namespace QueryLint

open QueryLint.Text

/-- How file content is cut into queries. -/
inductive SplitMode where
  /-- At every `;`. -/
  | statement
  /-- At every line end. -/
  | line
  deriving DecidableEq, Repr

namespace SplitMode

/-- The name of a mode. -/
def name : SplitMode → String
  | statement => "statement"
  | line => "line"

/-- Both modes. -/
def all : List SplitMode :=
  [statement, line]

/-- The mode with exactly this name. -/
def ofName? (name : String) : Option SplitMode :=
  all.find? fun mode => mode.name == name

/-- A mode is found again by its name. -/
@[simp]
theorem ofName?_name (m : SplitMode) : ofName? m.name = some m := by
  cases m <;> decide +kernel

/-- A text that names no mode, in lower case. -/
structure Unknown where
  name : String
  deriving DecidableEq, Repr

/-- What is reported about a text that names no mode. -/
def Unknown.message (u : Unknown) : String :=
  s!"Parse error: unknown split mode '{u.name}', expected 'statement' or 'line'"

/-- The mode a text names in any ASCII case. -/
def parse (text : String) : Except Unknown SplitMode :=
  match ofName? (lowerAscii text) with
  | some mode => .ok mode
  | none => .error ⟨lowerAscii text⟩

end SplitMode

/-- Where no mode is named, content is cut into statements. -/
instance : Inhabited SplitMode :=
  ⟨.statement⟩

/-- The settings of a run. -/
structure Settings where
  /-- The name of the dialect. -/
  dialect : String
  split : SplitMode
  /-- The directory that receives one report per query. -/
  outputDir : String
  /-- Whether the extended checks run. -/
  extendedChecks : Bool
  /-- Whether a failed query makes the run fail. -/
  failOnInvalid : Bool
  /-- Where the summary is written, if anywhere. -/
  summaryFile : Option String
  /-- Patterns of the names of files to leave out of a directory. -/
  skipFiles : List String
  deriving DecidableEq, Repr

namespace Settings

/-- The dialect where none is named. -/
def defaultDialect : String := "ansi"

/-- The directory of the reports where none is named. -/
def defaultOutputDir : String := "outputs"

/-- The settings without a settings file. -/
def default : Settings where
  dialect := defaultDialect
  split := Inhabited.default
  outputDir := defaultOutputDir
  extendedChecks := false
  failOnInvalid := true
  summaryFile := none
  skipFiles := []

/-- What each setting is in a document that leaves it out: the default of its type, where it has
    none of its own. -/
def omitted : Settings where
  dialect := defaultDialect
  split := Inhabited.default
  outputDir := defaultOutputDir
  extendedChecks := Inhabited.default
  failOnInvalid := true
  summaryFile := Inhabited.default
  skipFiles := Inhabited.default

/-- A document that leaves everything out says what holds without one. -/
theorem omitted_eq_default : omitted = default :=
  rfl

/-- The skip patterns of rules for input that leave them out. -/
def omittedPatterns : List String :=
  Inhabited.default

end Settings

end QueryLint

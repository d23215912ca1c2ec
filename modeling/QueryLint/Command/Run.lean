/-
  QueryLint.Command.Run

  Whole runs of the program: settings are loaded, the options of the command line are
  applied to them, queries are read and reviewed, reports and the summary are written.
  The first step that fails ends the run.
-/
import QueryLint.Checker
import QueryLint.Command.Parser
import QueryLint.Command.Screen
import QueryLint.Report.Writer
import QueryLint.Settings.File
import QueryLint.Source.Reader

namespace QueryLint.Command

/-- How a run ends. -/
inductive Exit where
  | success
  | failure
  /-- The command line is not understood. -/
  | misuse
  deriving DecidableEq, Repr

/-- The number a run ends with. -/
def Exit.code : Exit → UInt32
  | success => 0
  | failure => 1
  | misuse => 2

/-- Why a run does not come to its end. -/
inductive RunError where
  | settings (path : String) (cause : Settings.FileError)
  | dialect (cause : Dialect.Unknown)
  | input (path : String) (cause : Source.ReadError)
  | output (dir : String) (cause : Report.WriteError)
  | summary (path : String) (cause : SystemError)
  deriving DecidableEq, Repr

/-- What is reported about a run that does not come to its end. -/
def RunError.message : RunError → String
  | settings path _ => s!"Failed to load config from {path}"
  | dialect cause => cause.message
  | input path _ => s!"Failed to read queries from {path}"
  | output dir _ => s!"Failed to write results to {dir}"
  | summary path _ => s!"Failed to write summary to {path}"

/-- The causes that are reported, outermost first. -/
def RunError.causes : RunError → List String
  | settings _ cause => [cause.message]
  | dialect _ => []
  | input _ cause => cause.messages
  | output _ cause => cause.messages
  | summary _ cause => [cause.message]

/-- The settings file that is used if none is given and it exists. -/
def defaultSettingsFile : String :=
  "sqlvet.toml"

/-- The name and version of the program. -/
def versionText : String :=
  "sqlvet 0.1.0"

/-- How the program is used. -/
def helpLines : List String :=
  ["sqlvet - Offline SQL validation against dialect rules", "",
    "Usage: sqlvet [OPTIONS] <COMMAND>", "",
    "Commands:",
    "  check <PATH>  Validate the queries in a file or directory",
    "  dialects      List the available dialects and their policies",
    "  help          Print this text", "",
    "Options:",
    "  -c, --config <FILE>      Path to config file (default: sqlvet.toml)",
    "  -v, --verbose            Enable verbose output",
    "  -h, --help               Print this text",
    "  -V, --version            Print the version", "",
    "Options of check:",
    "  -d, --dialect <DIALECT>  Dialect to validate against (overrides config)",
    "  -o, --output <DIR>       Directory for per-query JSON results (overrides config)",
    "      --split <SPLIT>      How to cut files into queries: statement or line",
    "      --extended           Also run the subquery, CTE and set-operation checks",
    "      --summary <FILE>     Write the run summary to this file",
    "      --no-fail            Exit 0 even when queries fail validation"]

variable {m : Type → Type} [Monad m]

/-- A step of a run, whose failure is a failure of the run. -/
def step {ε α : Type} (fail : ε → RunError) (action : m (Except ε α)) : ExceptT RunError m α :=
  ExceptT.mk do return (← action).mapError fail

/-- A line on the standard error output, under a condition. -/
def remark (host : Host m) (condition : Bool) (line : String) : ExceptT RunError m Unit :=
  if condition then host.err (line ++ "\n") else pure ()

/-- The settings in the file that is given, or in the default one, or the default. -/
def loadSettings (host : Host m) (colours verbose : Bool) (config : Option String) :
    ExceptT RunError m Settings := do
  match config with
  | some path => step (.settings path) (Settings.load host path)
  | none =>
    if ← host.pathExists defaultSettingsFile then
      step (.settings defaultSettingsFile) (Settings.load host defaultSettingsFile)
    else
      remark host verbose (tint colours .yellow "No config file found, using defaults")
      return .default

/-- The queries at a path. -/
def readQueries (host : Host m) (path : String) (s : Settings) :
    ExceptT RunError m (List Query) :=
  step (.input path) (Source.read host path (.ofSettings s)).run

/-- Show a report and write it. -/
def deliver (host : Host m) (colours : Bool) (r : Report) : Report.Writing m Unit := do
  host.out (asLines (reportLines colours r))
  r.write host

/-- Review queries, and show and write each report. -/
def reviewAll (host : Host m) (colours : Bool) (checker : Checker) (dir : String)
    (queries : List Query) : ExceptT RunError m Summary := do
  let timestamp ← host.now
  step (.output dir) ((checker.run timestamp (deliver host colours) queries).run.run' ⟨dir, false⟩)

/-- Write the summary, if a file for it is set. -/
def saveSummary (host : Host m) (colours verbose : Bool) (s : Summary) :
    Option String → ExceptT RunError m Unit
  | none => return ()
  | some path => do
    step (.summary path) (host.writeText path s.print)
    remark host verbose (tint colours .green "Summary saved to:" ++ " " ++ path)

/-- Whether a run that came to its end is a success. -/
def exitFor (s : Settings) (summary : Summary) : Exit :=
  if s.failOnInvalid && summary.hasFailures then .failure else .success

/-- Validate the queries of a file or directory. -/
def check (host : Host m) (colours verbose : Bool) (s : Settings) (path : String) :
    ExceptT RunError m Exit := do
  match Dialect.resolve s.dialect with
  | .error cause => throw (.dialect cause)
  | .ok dialect =>
    remark host verbose (tint colours .cyan "Using" ++ " dialect: " ++ dialect.name)
    remark host verbose (tint colours .cyan "Reading queries from:" ++ " " ++ path)
    let queries ← readQueries host path s
    remark host queries.isEmpty (tint colours .yellow "No queries found")
    let summary ← reviewAll host colours ⟨dialect, s.extendedChecks⟩ s.outputDir queries
    saveSummary host colours verbose summary s.summaryFile
    host.out (asLines (summaryLines colours summary s.outputDir))
    return exitFor s summary

/-- Carry out what a command line asks for. -/
def carryOut (host : Host m) (colours : Bool) (i : Invocation) : ExceptT RunError m Exit := do
  let settings ← loadSettings host colours i.verbose i.config
  match i.task with
  | .check args => check host colours i.verbose (args.applyTo settings) args.path
  | .dialects =>
    host.out (asLines (dialectsLines colours))
    return .success

/-- Answer a command line that is not carried out. -/
def refuse (host : Host m) (r : Refusal) : m Exit := do
  match r with
  | .help =>
    host.out (asLines helpLines)
    return .success
  | .version =>
    host.out (asLines [versionText])
    return .success
  | .nothingGiven =>
    host.err (asLines helpLines)
    return .misuse
  | r =>
    host.err (asLines ["error: " ++ r.message])
    return .misuse

/-- Run the program on an understood command line, and report the failure that ends it. -/
def runInvocation (host : Host m) (colours : Bool) (i : Invocation) : m Exit := do
  match ← (carryOut host colours i).run with
  | .ok exit => return exit
  | .error e =>
    host.err (asLines (failureLines e.message e.causes))
    return .failure

/-- Run the program on the words of its command line. -/
def run (host : Host m) (colours : Bool) (words : List String) : m Exit :=
  match parse words with
  | .ok i => runInvocation host colours i
  | .error r => refuse host r

end QueryLint.Command

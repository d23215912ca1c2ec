/-
  QueryLint.Command.Basic

  What a command line asks for, and why one is not understood.
-/
import QueryLint.Settings.Basic

namespace QueryLint.Command

/-- What the `check` command is told. An option that is not given leaves the setting as it is. -/
structure CheckArguments where
  path : String
  dialect : Option String := none
  output : Option String := none
  split : Option SplitMode := none
  extended : Bool := false
  summary : Option String := none
  noFail : Bool := false
  deriving DecidableEq, Repr

/-- The settings with the options of the command line, which win, applied to them. -/
def CheckArguments.applyTo (args : CheckArguments) (s : Settings) : Settings :=
  { s with
    dialect := args.dialect.getD s.dialect
    outputDir := args.output.getD s.outputDir
    split := args.split.getD s.split
    extendedChecks := args.extended || s.extendedChecks
    summaryFile := args.summary.or s.summaryFile
    failOnInvalid := !args.noFail && s.failOnInvalid }

/-- What to do. -/
inductive Task where
  | check (args : CheckArguments)
  | dialects
  deriving DecidableEq, Repr

/-- A command line that is understood. -/
structure Invocation where
  /-- The settings file, if one is given. -/
  config : Option String
  verbose : Bool
  task : Task
  deriving DecidableEq, Repr

/-- Things on the command line that have a value: options, and the path of `check`. -/
inductive Parameter where
  | config
  | path
  | dialect
  | output
  | split
  | summary
  deriving DecidableEq, Repr

/-- Flags: given or not. -/
inductive Flag where
  | verbose
  | extended
  | noFail
  deriving DecidableEq, Repr

/-- How a parameter is written. -/
def Parameter.spelling : Parameter → String
  | config => "--config"
  | path => "<PATH>"
  | dialect => "--dialect"
  | output => "--output"
  | split => "--split"
  | summary => "--summary"

/-- How a flag is written. -/
def Flag.spelling : Flag → String
  | verbose => "--verbose"
  | extended => "--extended"
  | noFail => "--no-fail"

/-- Why a command line is not carried out: it asks for a text about the program, or it is not
    understood. -/
inductive Refusal where
  | help
  | version
  /-- There are no arguments at all. -/
  | nothingGiven
  | missingCommand
  | unknownCommand (name : String)
  | missingPath
  | unknownArgument (text : String)
  | missingValue (parameter : Parameter)
  | emptyValue (parameter : Parameter)
  | badSplit (cause : SplitMode.Unknown)
  /-- A flag, or a request for a text, is given a value. -/
  | unexpectedValue (text : String)
  | repeated (spelling : String)
  deriving DecidableEq, Repr

/-- What is reported about a command line that is not understood. -/
def Refusal.message : Refusal → String
  | help => "help requested"
  | version => "version requested"
  | nothingGiven => "no arguments are given"
  | missingCommand => "no command is given; the commands are check, dialects and help"
  | unknownCommand name => s!"unknown command '{name}'"
  | missingPath => "check needs the path of a file or a directory"
  | unknownArgument text => s!"unexpected argument '{text}'"
  | missingValue parameter => parameter.spelling ++ " needs a value"
  | emptyValue parameter => parameter.spelling ++ " needs a value that is not empty"
  | badSplit cause => cause.message
  | unexpectedValue text => s!"'{text}' takes no value"
  | repeated spelling => spelling ++ " is given more than once"

end QueryLint.Command

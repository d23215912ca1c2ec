/-
  QueryLint.Source.Reader

  Reading queries from a file, or from the files directly inside a directory.
-/
import QueryLint.Host
import QueryLint.Report.Basic
import QueryLint.Source.Pattern
import QueryLint.Source.Split

namespace QueryLint.Source

/-- Why queries cannot be read. -/
inductive ReadError where
  /-- The path leads to neither a file nor a directory. -/
  | invalidPath (path : String)
  | unreadable (path : String) (cause : SystemError)
  | unlisted (path : String) (cause : SystemError)
  deriving DecidableEq, Repr

/-- How a directory that cannot be listed is reported. -/
def listingFailure (path : String) (cause : SystemError) : String :=
  s!"IO error for operation on {path}: {cause.message}"

/-- What is reported about a failure to read, with its causes. -/
def ReadError.messages : ReadError → List String
  | invalidPath path => [s!"Invalid path: {path}"]
  | unreadable path cause => [s!"Failed to read {path}: {cause.message}", cause.message]
  | unlisted path cause =>
    ["Failed to list directory: " ++ listingFailure path cause, listingFailure path cause,
      cause.message]

/-- How queries are read. -/
structure Options where
  split : SplitMode := .statement
  /-- Patterns of the names of files to leave out of a directory. -/
  skip : List String := []

/-- The part of the settings that says how queries are read. -/
def Options.ofSettings (s : Settings) : Options :=
  ⟨s.split, s.skipFiles⟩

/-- What the queries of a file are labelled with: its name, or the path if it has none. -/
def label (path : String) : String :=
  (Path.fileName? path).getD path

/-- The queries of a content, labelled. -/
def queriesOf (label : String) (mode : SplitMode) (content : String) : List Query :=
  (split mode content).map fun sql => ⟨label, sql⟩

variable {m : Type → Type} [Monad m]

/-- The queries of a file. -/
def readOne (host : Host m) (path : String) (mode : SplitMode) :
    ExceptT ReadError m (List Query) := do
  match ← host.readText path with
  | .ok content => return queriesOf (label path) mode content
  | .error cause => throw (.unreadable path cause)

/-- The queries of the files with these names in a directory, one file after the other. -/
def readEach (host : Host m) (dir : String) (mode : SplitMode) :
    List String → ExceptT ReadError m (List Query)
  | [] => return []
  | name :: names => do
    let queries ← readOne host (Path.join dir name) mode
    return queries ++ (← readEach host dir mode names)

/-- The queries of a file, or of the files of a directory whose names no pattern matches. Files are
    read in the order of their names, and directories inside are not entered. -/
def read (host : Host m) (path : String) (options : Options) :
    ExceptT ReadError m (List Query) := do
  if ← host.isFile path then readOne host path options.split
  else if ← host.isDirectory path then
    match ← host.regularFiles path with
    | .ok names =>
      readEach host path options.split (names.filter (!isSkipped options.skip ·))
    | .error cause => throw (.unlisted path cause)
  else throw (.invalidPath path)

end QueryLint.Source

/-
  QueryLint.Report.Writer

  Writing reports into a directory, one file per query. Before the first report the
  directory is made and the reports of an earlier run are removed; everything else in
  it stays.
-/
import QueryLint.Host
import QueryLint.Report.Json

namespace QueryLint.Report

/-- Why a report cannot be written. -/
inductive WriteError where
  | unwritable (path : String) (cause : SystemError)
  | unlisted (path : String) (cause : SystemError)
  deriving DecidableEq, Repr

/-- What is reported about a failure to write, with its causes. -/
def WriteError.messages : WriteError → List String
  | unwritable path cause => [s!"Failed to write {path}: {cause.message}", cause.message]
  | unlisted path cause =>
    let listing := s!"IO error for operation on {path}: {cause.message}"
    ["Failed to list output directory: " ++ listing, listing, cause.message]

/-- Writes reports into a directory. -/
structure Writer where
  dir : String
  /-- Whether the directory has been made ready. -/
  ready : Bool := false
  deriving DecidableEq, Repr

/-- The name of the file for a query. -/
def fileName (id : Nat) : String :=
  s!"query_{id}.json"

/-- Whether a file has the name of a report: digits between `query_` and `.json`. -/
def isFileName (name : String) : Bool :=
  let front := ['q', 'u', 'e', 'r', 'y', '_']
  let back := ['.', 'j', 's', 'o', 'n']
  let cs := name.toList
  let digits := (cs.take (cs.length - back.length)).drop front.length
  front.isPrefixOf cs && back.isSuffixOf (cs.drop front.length) && !digits.isEmpty &&
    digits.all Char.isDigit

/-- The path of the file for a query. -/
def Writer.pathFor (w : Writer) (id : Nat) : String :=
  Path.join w.dir (fileName id)

variable {m : Type → Type} [Monad m]

/-- The monad of a writer: a failure keeps what the writer did before it. -/
abbrev Writing (m : Type → Type) :=
  ExceptT WriteError (StateT Writer m)

/-- An operation that fails for the file or directory at `path`. -/
def attempt (path : String) (operation : m (Except SystemError Unit)) : Writing m Unit := do
  match ← (monadLift operation : Writing m (Except SystemError Unit)) with
  | .ok () => return ()
  | .error cause => throw (.unwritable path cause)

/-- Remove the reports among the files with these names. -/
def removeReports (host : Host m) (dir : String) : List String → Writing m Unit
  | [] => return ()
  | name :: names => do
    if isFileName name then
      attempt (Path.join dir name) (host.removeFile (Path.join dir name))
    removeReports host dir names

/-- Make the directory and remove the reports of an earlier run. -/
def prepare (host : Host m) (dir : String) : Writing m Unit := do
  attempt dir (host.createDirectories dir)
  match ← (monadLift (host.regularFiles dir) : Writing m (Except SystemError (List String))) with
  | .ok names => removeReports host dir names
  | .error cause => throw (.unlisted dir cause)

/-- Write one report. -/
def write (host : Host m) (r : Report) : Writing m Unit := do
  let w ← get
  if !w.ready then
    prepare host w.dir
    set { w with ready := true }
  attempt (w.pathFor r.id) (host.writeText (w.pathFor r.id) r.print)

end QueryLint.Report

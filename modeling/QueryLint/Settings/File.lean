/-
  QueryLint.Settings.File

  Settings files: loading and saving.
-/
import QueryLint.Host
import QueryLint.Settings.Toml

namespace QueryLint.Settings

/-- Why settings cannot be loaded or saved. -/
inductive FileError where
  | system (cause : SystemError)
  | malformed (fault : Fault)
  deriving DecidableEq, Repr

/-- What is reported about settings that cannot be loaded or saved. -/
def FileError.message : FileError → String
  | system cause => s!"IO error: {cause.message}"
  | malformed fault => fault.message

variable {m : Type → Type} [Monad m]

/-- The settings in a file. -/
def load (host : Host m) (path : String) : m (Except FileError Settings) := do
  match ← host.readText path with
  | .error cause => return .error (.system cause)
  | .ok text => return (ofToml text).mapError .malformed

/-- Write settings to a file. -/
def save (host : Host m) (s : Settings) (path : String) : m (Except FileError Unit) := do
  return (← host.writeText path s.toToml).mapError .system

end QueryLint.Settings

/-
  QueryLint.Host

  What a run needs from its surroundings: files, two output streams and the time. Runs
  are written against `Host`, so that the same code works on real files and on
  `Machine`, a complete description of the surroundings as a value.
-/
import QueryLint.Disk.Files

namespace QueryLint

/-- The surroundings of a run, as operations of a monad. -/
structure Host (m : Type → Type) where
  /-- Whether a path leads to a file. -/
  isFile : String → m Bool
  /-- Whether a path leads to a directory. -/
  isDirectory : String → m Bool
  /-- Whether a path leads to anything. -/
  pathExists : String → m Bool
  /-- The names of the files directly inside a directory, links left out, in increasing order. -/
  regularFiles : String → m (Except SystemError (List String))
  readText : String → m (Except SystemError String)
  writeText : String → String → m (Except SystemError Unit)
  /-- Make a directory and its missing parents. -/
  createDirectories : String → m (Except SystemError Unit)
  removeFile : String → m (Except SystemError Unit)
  /-- Write to the standard output. -/
  out : String → m Unit
  /-- Write to the standard error output. -/
  err : String → m Unit
  /-- The time now. -/
  now : m String

/-- Surroundings as a value. -/
structure Machine where
  disk : Disk
  stdout : String
  stderr : String
  clock : String

namespace Machine

/-- A machine that has written nothing yet. -/
def ofDisk (disk : Disk) (clock : String) : Machine :=
  ⟨disk, "", "", clock⟩

/-- Ask something of the disk. -/
def ask {α : Type} (question : Disk → α) : StateM Machine α :=
  return question (← get).disk

/-- Change the disk by an operation that reports how it went. -/
def change (operation : Disk → Disk.Outcome) : StateM Machine (Except SystemError Unit) := do
  let machine ← get
  let (result, disk) := operation machine.disk
  set { machine with disk }
  return result

/-- A machine as the surroundings of a run. -/
def host : Host (StateM Machine) where
  isFile path := ask (·.isFile path)
  isDirectory path := ask (·.isDirectory path)
  pathExists path := ask (·.contains path)
  regularFiles path := ask (·.regularFiles path)
  readText path := ask (·.readText path)
  writeText path text := change fun d => d.outcome (d.writeBytes path text.toUTF8)
  createDirectories path := change (·.createDirectories path)
  removeFile path := change fun d => d.outcome (d.removeFile path)
  out text := modify fun machine => { machine with stdout := machine.stdout ++ text }
  err text := modify fun machine => { machine with stderr := machine.stderr ++ text }
  now := return (← get).clock

end Machine

end QueryLint

/-
  QueryLint.Main

  The program: runs on real files and streams, at the real time.
-/
import QueryLint.Command.Run
import Std.Time.DateTime

namespace QueryLint

/-- The failure of an operation on files, as the system reports it. -/
def systemError : IO.Error → SystemError
  | .noFileOrDirectory .. => .notFound
  | .alreadyExists .. => .alreadyExists
  | .inappropriateType _ code _ => if code = 21 then .isDirectory else .notDirectory
  | e => .other (toString e)

/-- Do something with a path, which may not be empty. -/
def attemptAt {α : Type} (path : String) (action : IO α) : IO (Except SystemError α) := do
  if path.isEmpty then return .error .notFound
  match ← action.toBaseIO with
  | .ok a => return .ok a
  | .error e => return .error (systemError e)

/-- What a path leads to. -/
def typeAt (path : String) : IO (Option IO.FS.FileType) := do
  match ← attemptAt path ((← IO.currentDir) / path).metadata with
  | .ok data => return some data.type
  | .error _ => return none

/-- The names of the files directly inside a directory. -/
def namesInside (path : String) : IO (List String) := do
  let entries ← ((← IO.currentDir) / path).readDir
  let files ← entries.toList.filterM fun entry => do
    return (← entry.path.symlinkMetadata).type == .file
  return (files.map (·.fileName)).mergeSort fun a b => a ≤ b

/-- The text of a file. -/
def textAt (path : String) : IO (Except SystemError String) := do
  match ← attemptAt path (IO.FS.readBinFile path) with
  | .error e => return .error e
  | .ok content =>
    match String.fromUTF8? content with
    | some text => return .ok text
    | none => return .error .notUtf8

/-- The digits of a number, with zeros before them up to a width. -/
def padded (width n : Nat) : String :=
  let digits := toString n
  String.ofList (List.replicate (width - digits.length) '0') ++ digits

/-- The part of a second, in as few groups of three digits as it takes. -/
def fraction (nanos : Nat) : String :=
  if nanos = 0 then ""
  else if nanos % 1000000 = 0 then "." ++ padded 3 (nanos / 1000000)
  else if nanos % 1000 = 0 then "." ++ padded 6 (nanos / 1000)
  else "." ++ padded 9 nanos

/-- The time now, as a date and a time of the day. -/
def timeNow : IO String := do
  let now := (Std.Time.DateTime.ofTimestamp (← Std.Time.Timestamp.now)
    Std.Time.TimeZone.ZoneRules.UTC).toPlainDateTime
  let two (n : Int) : String := padded 2 n.toNat
  let date := padded 4 now.year.toInt.toNat ++ "-" ++ two now.month.val ++ "-" ++ two now.day.val
  let time := two now.hour.val ++ ":" ++ two now.minute.val ++ ":" ++ two now.second.val
  return date ++ "T" ++ time ++ fraction now.nanosecond.val.toNat ++ "+00:00"

/-- The surroundings of the program. -/
def realHost : Host IO where
  isFile path := return (← typeAt path) == some .file
  isDirectory path := return (← typeAt path) == some .dir
  pathExists path := return (← typeAt path).isSome
  regularFiles path := attemptAt path (namesInside path)
  readText path := textAt path
  writeText path text := attemptAt path (IO.FS.writeFile path text)
  createDirectories path := do
    if path.isEmpty then return .ok ()
    attemptAt path (IO.FS.createDirAll path)
  removeFile path := attemptAt path (IO.FS.removeFile path)
  out text := do (← IO.getStdout).putStr text
  err text := do (← IO.getStderr).putStr text
  now := timeNow

/-- What a variable of the environment switches: nothing if it is not set. -/
def switch? (name : String) : IO (Option Bool) := do
  return (← IO.getEnv name).map (· ≠ "0")

/-- Whether the output shows colours: as the environment says, or on terminals. -/
def showsColours : IO Bool := do
  if (← switch? "CLICOLOR_FORCE") = some true then return true
  if (← switch? "NO_COLOR").isSome then return false
  if (← switch? "CLICOLOR") = some false then return false
  (← IO.getStdout).isTty

end QueryLint

/-- Run the program on its command line. -/
def main (words : List String) : IO UInt32 := do
  return (← QueryLint.Command.run QueryLint.realHost (← QueryLint.showsColours) words).code

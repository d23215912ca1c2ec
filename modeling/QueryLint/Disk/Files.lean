/-
  QueryLint.Disk.Files

  Reading and changing a tree of files by paths.
-/
import QueryLint.Disk.Walk

namespace QueryLint.Disk

/-! ## Asking -/

/-- What a path leads to, links followed. -/
def find? (d : Disk) (path : String) : Option Entry :=
  match d.resolve .reach path with
  | .ok (.found _ entry) => some entry
  | _ => none

/-- Whether a path leads to anything. -/
def contains (d : Disk) (path : String) : Bool :=
  (d.find? path).isSome

/-- Whether a path leads to a file. -/
def isFile (d : Disk) (path : String) : Bool :=
  match d.find? path with
  | some (.file _) => true
  | _ => false

/-- Whether a path leads to a directory. -/
def isDirectory (d : Disk) (path : String) : Bool :=
  match d.find? path with
  | some .directory => true
  | _ => false

/-! ## Reading -/

/-- The content of the file or device a path leads to. -/
def readBytes (d : Disk) (path : String) : Except SystemError ByteArray :=
  match d.resolve .reach path with
  | .error e => .error e
  | .ok (.free _) => .error .notFound
  | .ok (.found _ (.file content)) => .ok content
  | .ok (.found _ (.device device)) => device.read
  | .ok (.found _ _) => .error .isDirectory

/-- The text of the file or device a path leads to. -/
def readText (d : Disk) (path : String) : Except SystemError String :=
  match d.readBytes path with
  | .error e => .error e
  | .ok content =>
    match String.fromUTF8? content with
    | some text => .ok text
    | none => .error .notUtf8

/-- The name of a file that stands directly inside a directory. -/
def fileInside? (dir : Place) : Place × Entry → Option String
  | (place, .file _) =>
    match place.names.getLast? with
    | some name => if place.parent = dir then some name else none
    | none => none
  | _ => none

/-- The names of the files directly inside a directory, links left out, in increasing order. -/
def filesInside (d : Disk) (dir : Place) : List String :=
  (d.entries.filterMap (fileInside? dir)).mergeSort fun a b => a ≤ b

/-- The names of the files directly inside the directory a path leads to. -/
def regularFiles (d : Disk) (path : String) : Except SystemError (List String) :=
  match d.resolve .reach path with
  | .error e => .error e
  | .ok (.found place .directory) => .ok (d.filesInside place)
  | .ok (.found _ _) => .error .notDirectory
  | .ok (.free _) => .error .notFound

/-! ## Writing -/

/-- Change the tree where a path leads. A place there that takes a file is a proper one. -/
def changeAt (d : Disk) (purpose : Purpose) (path : String)
    (change : (target : Target) → (∀ place, target.Takes place → place.IsProper) →
      Except SystemError Disk) : Except SystemError Disk :=
  -- The equation is kept: what the place is follows from how the path leads there.
  match h : d.resolve purpose path with
  | .error e => .error e
  | .ok target => change target fun _ => isProper_of_resolve h

/-- Write a file where a path has led: replace the content of the one that is there, or make a
    new one. A device takes the content and keeps nothing. -/
def writeTo (d : Disk) (content : ByteArray) :
    (target : Target) → (∀ place, target.Takes place → place.IsProper) → Except SystemError Disk
  | .free place, h => .ok (d.put place (.file content) (h place .free) (.file _))
  | .found place (.file _), h => .ok (d.put place (.file content) (h place .file) (.file _))
  | .found _ (.device device), _ => (device.write content).map fun _ => d
  | .found _ .directory, _ | .found _ (.link _), _ => .error .isDirectory

/-- Write a file. -/
def writeBytes (d : Disk) (path : String) (content : ByteArray) : Except SystemError Disk :=
  d.changeAt .write path (d.writeTo content)

/-- Make something where a path has led, if nothing stands there. -/
def makeAt (d : Disk) (entry : Entry) (hentry : entry.IsProper) :
    (target : Target) → (∀ place, target.Takes place → place.IsProper) → Except SystemError Disk
  | .free place, h => .ok (d.put place entry (h place .free) hentry)
  | .found _ _, _ => .error .alreadyExists

/-- Make something where nothing stands. -/
def makeEntry (d : Disk) (path : String) (entry : Entry) (hentry : entry.IsProper) :
    Except SystemError Disk :=
  d.changeAt .name path (d.makeAt entry hentry)

/-- Make one directory where nothing stands. -/
def makeDirectory (d : Disk) (path : String) : Except SystemError Disk :=
  d.makeEntry path .directory .directory

/-- Make a symbolic link where nothing stands. -/
def makeLink (d : Disk) (path target : String) : Except SystemError Disk :=
  if h : '\x00' ∈ target.toList then .error .nulInName
  else if target.isEmpty then .error .notFound
  else if pathLimit < target.utf8ByteSize then .error .nameTooLong
  else d.makeEntry path (.link target) h

/-- The outcome of an operation that may have changed the tree before it failed. -/
abbrev Outcome :=
  Except SystemError Unit × Disk

/-- The outcome of an operation that changes nothing when it fails. -/
def outcome (d : Disk) : Except SystemError Disk → Outcome
  | .ok d => (.ok (), d)
  | .error e => (.error e, d)

/-- Make a directory, or find it there already. -/
def ensureDirectory (d : Disk) (path : String) : Outcome :=
  match d.makeDirectory path with
  | .ok d => (.ok (), d)
  | .error e => if d.isDirectory path then (.ok (), d) else (.error e, d)

/-- Make a directory if it is missing. Where its parent is missing, `parents` makes that first. -/
def ensureAfter (parents : Disk → Outcome) (d : Disk) (path : String) : Outcome :=
  match d.ensureDirectory path with
  | (.error .notFound, d) =>
    match parents d with
    | (.ok (), d) => d.ensureDirectory path
    | failed => failed
  | done => done

/-- Make the directory with these components, last first, and its missing parents. -/
def makeDirectories (absolute : Bool) : List String → Disk → Outcome
  | [], d => (.ok (), d)
  | name :: parents, d =>
    ensureAfter (makeDirectories absolute parents) d
      (Path.ofComponents absolute (name :: parents).reverse)

/-- Make a directory and its missing parents. -/
def createDirectories (d : Disk) (path : String) : Outcome :=
  if path.isEmpty then (.ok (), d)
  else ensureAfter
    (makeDirectories (Path.isAbsolute path) (Path.components path).dropLast.reverse) d path

/-- Remove a file or a link. -/
def removeFile (d : Disk) (path : String) : Except SystemError Disk :=
  match d.resolve .name path with
  | .error e => .error e
  | .ok (.free _) => .error .notFound
  | .ok (.found _ .directory) => .error .isDirectory
  | .ok (.found place _) => .ok (d.erase place)

end QueryLint.Disk

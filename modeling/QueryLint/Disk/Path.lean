/-
  QueryLint.Disk.Path

  Paths as texts: the names they are made of, the last name, and joining. `IsName` says which
  names can stand for something in a directory.
-/
import QueryLint.Text.Pieces

namespace QueryLint.Path

open QueryLint.Text

/-- The names a path is made of, `.` and `..` included. -/
def names (path : String) : List String :=
  ((pieces '/' path.toList).filter (· ≠ [])).map String.ofList

/-- Whether a path starts from the root of the system. -/
def isAbsolute (path : String) : Bool :=
  path.toList.head? == some '/'

/-- Whether a path ends with a slash. -/
def endsWithSlash (path : String) : Bool :=
  path.toList.getLast? == some '/'

/-- The names of a path without those that say nothing: every `.` but one that a path from the
    working directory begins with. -/
def components (path : String) : List String :=
  match names path with
  | [] => []
  | first :: rest =>
    (if first = "." && isAbsolute path then [] else [first]) ++ rest.filter (· ≠ ".")

/-- The path with these components. -/
def ofComponents (absolute : Bool) (components : List String) : String :=
  (if absolute then "/" else "") ++ "/".intercalate components

/-- The name a path ends with; `.` and `..` are no names. -/
def fileName? (path : String) : Option String :=
  ((components path).getLast?).filter fun name => name ≠ "." && name ≠ ".."

/-- The path of a name inside a directory. -/
def join (dir name : String) : String :=
  if dir.isEmpty || endsWithSlash dir then dir ++ name else dir ++ "/" ++ name

/-! ## Names of things -/

/-- A name that stands for one thing in a directory. -/
structure IsName (name : String) : Prop where
  nonempty : name ≠ ""
  slash : '/' ∉ name.toList
  nul : '\x00' ∉ name.toList
  dot : name ≠ "."
  up : name ≠ ".."

instance (name : String) : Decidable (IsName name) :=
  decidable_of_iff (name ≠ "" ∧ '/' ∉ name.toList ∧ '\x00' ∉ name.toList ∧ name ≠ "." ∧ name ≠ "..")
    ⟨fun ⟨nonempty, slash, nul, dot, up⟩ => ⟨nonempty, slash, nul, dot, up⟩,
      fun h => ⟨h.nonempty, h.slash, h.nul, h.dot, h.up⟩⟩

/-- Of the names a path without NUL is made of, only `.` and `..` stand for nothing inside. -/
theorem isName_of_mem_names {path name : String} (hnul : '\x00' ∉ path.toList)
    (hname : name ∈ names path) (hdot : name ≠ ".") (hup : name ≠ "..") : IsName name := by
  obtain ⟨piece, hpiece, rfl⟩ := List.mem_map.1 hname
  obtain ⟨hmem, hne⟩ := List.mem_filter.1 hpiece
  refine ⟨?_, ?_, ?_, hdot, hup⟩
  · simpa using hne
  · rw [String.toList_ofList]
    exact not_mem_of_mem_pieces hmem
  · rw [String.toList_ofList]
    exact fun hc => hnul (mem_of_mem_pieces hmem hc)

end QueryLint.Path

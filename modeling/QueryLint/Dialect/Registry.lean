/-
  QueryLint.Dialect.Registry

  The built-in dialects and finding one by name.
-/
import QueryLint.Dialect.Ansi
import QueryLint.Dialect.MySql
import QueryLint.Text.Blank
import QueryLint.Text.Letter

namespace QueryLint.Dialect

open QueryLint.Text

/-- The built-in dialects, in the order they are listed. -/
def builtin : List Dialect :=
  [ansi, mysql]

/-- The names of the built-in dialects. -/
def names : List String :=
  builtin.map Dialect.name

/-- A name that no dialect has, as it was given. -/
structure Unknown where
  name : String
  deriving DecidableEq, Repr

/-- What is reported about an unknown name. -/
def Unknown.message (u : Unknown) : String :=
  s!"Unknown dialect '{u.name}'. Available dialects: " ++ ", ".intercalate names

/-- The built-in dialect with this name, in any ASCII case and with blanks around it. -/
def resolve (name : String) : Except Unknown Dialect :=
  match builtin.find? fun d => d.name == lowerAscii (trimmed name) with
  | some d => .ok d
  | none => .error ⟨name⟩

end QueryLint.Dialect

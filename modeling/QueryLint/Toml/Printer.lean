/-
  QueryLint.Toml.Printer

  Writing TOML documents, line by line. An array of two or more items takes a line for
  each, and a header is set off by an empty line.
-/
import QueryLint.Text.Reader
import QueryLint.Toml.Quoted
import QueryLint.Toml.Value

namespace QueryLint.Toml

open QueryLint.Text

/-- A truth value. -/
def writeBoolean : Bool → List Char
  | true => ['t', 'r', 'u', 'e']
  | false => ['f', 'a', 'l', 's', 'e']

/-- A list of texts. -/
def writeTexts : List String → List Char
  | [] => ['[', ']']
  | [s] => '[' :: writeQuoted s.toList ++ [']']
  | texts =>
    '[' :: '\n' ::
      texts.flatMap (fun s => [' ', ' ', ' ', ' '] ++ writeQuoted s.toList ++ [',', '\n']) ++ [']']

/-- `key = value` with the value already written. -/
def writeEntry (key : String) (value : List Char) : List Char :=
  key.toList ++ [' ', '=', ' '] ++ value ++ ['\n']

/-- A header after an empty line. -/
def writeHeader (key : String) : List Char :=
  ['\n', '['] ++ key.toList ++ [']', '\n']

end QueryLint.Toml

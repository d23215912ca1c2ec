/-
  QueryLint.Json.Printer

  Writing JSON over several lines: each item and member on a line of its own, indented
  by two more blanks than what holds it, and nothing after the last line.
-/
import QueryLint.Json.Basic

namespace QueryLint.Json

/-- A line break and the indentation of the next line. -/
def newLine (indent : Nat) : List Char :=
  '\n' :: List.replicate indent ' '

mutual

/-- A value whose lines are indented by `indent`. -/
def pretty (indent : Nat) : Json → List Char
  | .null => ['n', 'u', 'l', 'l']
  | .bool true => ['t', 'r', 'u', 'e']
  | .bool false => ['f', 'a', 'l', 's', 'e']
  | .number literal => literal
  | .string literal => '"' :: literal ++ ['"']
  | .array [] => ['[', ']']
  | .array (x :: xs) =>
    '[' :: newLine (indent + 2) ++ pretty (indent + 2) x ++ prettyItems (indent + 2) xs ++
      newLine indent ++ [']']
  | .object [] => ['\x7b', '\x7d']
  | .object ((name, x) :: ms) =>
    '\x7b' :: newLine (indent + 2) ++ prettyName name ++ pretty (indent + 2) x ++
      prettyMembers (indent + 2) ms ++ newLine indent ++ ['\x7d']

/-- The items after the first. -/
def prettyItems (indent : Nat) : List Json → List Char
  | [] => []
  | x :: xs => ',' :: newLine indent ++ pretty indent x ++ prettyItems indent xs

/-- The members after the first. -/
def prettyMembers (indent : Nat) : List (List Char × Json) → List Char
  | [] => []
  | (name, x) :: ms =>
    ',' :: newLine indent ++ prettyName name ++ pretty indent x ++ prettyMembers indent ms

/-- The name of a member and the colon after it. -/
def prettyName (name : List Char) : List Char :=
  '"' :: name ++ ['"', ':', ' ']

end

/-- A document in text. -/
def print (v : Json) : String :=
  String.ofList (pretty 0 v)

end QueryLint.Json

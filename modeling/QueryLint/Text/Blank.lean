/-
  QueryLint.Text.Blank

  White space (the Unicode property `White_Space`) and trimming by it. Every place
  that skips or trims blanks, in query text and in file content, uses this one class.
-/
import QueryLint.Text.CharSet

namespace QueryLint.Text

/-- The 25 code points with the property `White_Space`. -/
def blanks : CharSet where
  ranges := [
    (0x9, 0xD), (0x20, 0x20), (0x85, 0x85), (0xA0, 0xA0), (0x1680, 0x1680),
    (0x2000, 0x200A), (0x2028, 0x2029), (0x202F, 0x202F), (0x205F, 0x205F), (0x3000, 0x3000)]

/-- White space. -/
def isBlank (c : Char) : Bool :=
  blanks.contains c

/-! ## Dropping from either end -/

/-- Drop the longest end whose characters all satisfy `p`. -/
def dropEndWhile (p : Char → Bool) (cs : List Char) : List Char :=
  (cs.reverse.dropWhile p).reverse

/-- Dropping an end leaves a beginning of the text. -/
theorem dropEndWhile_prefix (p : Char → Bool) (cs : List Char) : dropEndWhile p cs <+: cs := by
  have h : cs.reverse.dropWhile p <:+ cs.reverse := List.dropWhile_suffix p
  simpa [dropEndWhile] using List.reverse_prefix.2 h

/-- Drop leading white space. -/
def trimStart (cs : List Char) : List Char :=
  cs.dropWhile isBlank

/-- Drop trailing white space. -/
def trimEnd (cs : List Char) : List Char :=
  dropEndWhile isBlank cs

/-- Drop white space at both ends. -/
def trim (cs : List Char) : List Char :=
  trimEnd (trimStart cs)

/-- A text with white space dropped at both ends. -/
def trimmed (s : String) : String :=
  String.ofList (trim s.toList)

end QueryLint.Text

/-
  QueryLint.Source.Pattern

  Patterns of file names. The first `*` of a pattern stands for any text; any further
  one stands for itself, except that `**` matches everything.
-/
import QueryLint.Text.Utf8

namespace QueryLint.Source

open QueryLint.Text

/-- Whether a name begins with `front` and ends with `back`, and has room for both, octet by
    octet. -/
def fitsAround (front back name : List Char) : Bool :=
  (octets front).length + (octets back).length ≤ (octets name).length &&
    (octets front).isPrefixOf (octets name) && (octets back).isSuffixOf (octets name)

/-- Whether a pattern matches a file name. -/
def matchesChars (pattern name : List Char) : Bool :=
  if !pattern.contains '*' then pattern == name
  else if pattern = ['*', '*'] then true
  else fitsAround (pattern.takeWhile (· != '*')) ((pattern.dropWhile (· != '*')).drop 1) name

/-- Whether one of the patterns matches a file name. -/
def isSkipped (patterns : List String) (name : String) : Bool :=
  patterns.any fun pattern => matchesChars pattern.toList name.toList

end QueryLint.Source

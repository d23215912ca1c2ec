/-
  QueryLint.Source.Split

  Cutting file content into queries: trimmed, never empty, in the order they stand.
-/
import QueryLint.Settings.Basic
import QueryLint.Text.Blank
import QueryLint.Text.Pieces

namespace QueryLint.Source

open QueryLint.Text

/-- The query on a line: trimmed, without the semicolons at its end. -/
def lineQuery (line : List Char) : List Char :=
  trimEnd (dropEndWhile (· == ';') (trim line))

/-- The queries of a content given as characters. -/
def splitChars (mode : SplitMode) (cs : List Char) : List (List Char) :=
  let candidates := match mode with
    | .statement => (pieces ';' cs).map trim
    | .line => (Text.lines cs).map lineQuery
  candidates.filter (!·.isEmpty)

/-- The queries of a content. -/
def split (mode : SplitMode) (content : String) : List String :=
  (splitChars mode content.toList).map String.ofList

end QueryLint.Source

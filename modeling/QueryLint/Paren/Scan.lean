/-
  QueryLint.Paren.Scan

  Reading raw query text for parentheses, without tokens. A single quote enters or
  leaves a string unless the character right before it is a backslash; parentheses
  inside strings are not seen.
-/
namespace QueryLint.Paren

/-- Where a scan of query text stands. -/
structure Scan where
  inString : Bool
  /-- The character just read. -/
  previous : Option Char
  deriving DecidableEq, Repr

/-- A scan that has read nothing. -/
def Scan.start : Scan :=
  ⟨false, none⟩

/-- Whether a character is a quote that enters or leaves a string. -/
def Scan.isDelimiter (s : Scan) (c : Char) : Bool :=
  c == '\'' && s.previous != some '\\'

/-- Read one character. -/
def Scan.step (s : Scan) (c : Char) : Scan :=
  ⟨if s.isDelimiter c then !s.inString else s.inString, some c⟩

/-- The scan after a text. -/
def Scan.after (s : Scan) (cs : List Char) : Scan :=
  cs.foldl Scan.step s

/-- Whether a character is read as part of the query itself: outside strings, and not a quote that
    enters one. -/
def Scan.sees (s : Scan) (c : Char) : Bool :=
  !s.isDelimiter c && !s.inString

/-- Which way a parenthesis faces. -/
inductive Side where
  | opening
  | closing
  deriving DecidableEq, Repr

/-- The side of a parenthesis character. -/
def Side.ofChar? (c : Char) : Option Side :=
  if c = '(' then some .opening else if c = ')' then some .closing else none

/-- A parenthesis seen outside strings, with its octet offset in the text. -/
structure Seen where
  side : Side
  offset : Nat
  deriving DecidableEq, Repr

/-- The parentheses a scan sees in a text whose first character has octet offset `i`. -/
def seenFrom (s : Scan) (i : Nat) : List Char → List Seen
  | [] => []
  | c :: cs =>
    let here := if s.sees c then (Side.ofChar? c).map (Seen.mk · i) else none
    here.toList ++ seenFrom (s.step c) (i + c.utf8Size) cs

/-- The parentheses seen outside strings, from left to right. -/
def seen (cs : List Char) : List Seen :=
  seenFrom .start 0 cs

end QueryLint.Paren

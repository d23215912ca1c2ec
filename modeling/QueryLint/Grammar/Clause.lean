/-
  QueryLint.Grammar.Clause

  Looking up clauses in a token sequence: the first token with a given text, what
  stands at an index, and the parenthesis that closes another.
-/
import QueryLint.Token.Basic

namespace QueryLint.Clause

/-- The index of the first token with this text. -/
def find? (ts : List Token) (text : String) : Option Nat :=
  ts.findIdx? (·.is text)

/-- Whether a token follows index `i`. -/
def hasAfter (ts : List Token) (i : Nat) : Bool :=
  i + 1 < ts.length

/-- Whether there is a token at index `i` and it has this text. -/
def isAt (ts : List Token) (i : Nat) (text : String) : Bool :=
  ts[i]?.any (·.is text)

/-- How far ahead the parenthesis stands that brings `depth` open ones back to none. -/
def closeAhead? (depth : Nat) : List Token → Option Nat
  | [] => none
  | t :: ts =>
    if t.is "(" then (closeAhead? (depth + 1) ts).map (· + 1)
    else if t.is ")" then
      if depth - 1 = 0 then some 0 else (closeAhead? (depth - 1) ts).map (· + 1)
    else (closeAhead? depth ts).map (· + 1)

/-- The index of the `)` that closes the `(` at index `i`. -/
def closingParen? (ts : List Token) (i : Nat) : Option Nat :=
  (closeAhead? 0 (ts.drop i)).map (· + i)

end QueryLint.Clause

/-
  QueryLint.Token.Basic

  Tokens: the pieces of a query that carry meaning, each with its class, its text
  and the line it starts on.
-/
namespace QueryLint

/-- The lexical class of a token. -/
inductive Token.Kind where
  | keyword
  | aggregate
  | star
  | identifier
  | number
  | string
  | operator
  | symbol
  deriving DecidableEq, Repr

/-- A token. Its text is in upper case, except that a string literal keeps its own. -/
structure Token where
  kind : Token.Kind
  text : String
  /-- The line the token starts on, counted from 1. -/
  line : Nat
  deriving DecidableEq, Repr

namespace Token

/-- Whether a token has this text; its class does not matter. -/
def is (t : Token) (text : String) : Bool :=
  t.text == text

@[simp]
theorem is_iff {t : Token} {text : String} : t.is text = true ↔ t.text = text := by
  simp [is]

/-- The name of a lexical class. -/
def Kind.name : Kind → String
  | keyword => "Keyword"
  | aggregate => "Aggregate"
  | star => "Star"
  | identifier => "Identifier"
  | number => "Number"
  | string => "String"
  | operator => "Operator"
  | symbol => "Symbol"

/-- Every lexical class. -/
def Kind.all : List Kind :=
  [keyword, aggregate, star, identifier, number, string, operator, symbol]

/-- The lexical class with this name. -/
def Kind.ofName? (name : String) : Option Kind :=
  all.find? fun kind => kind.name == name

end Token

end QueryLint

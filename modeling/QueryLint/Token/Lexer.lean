/-
  QueryLint.Token.Lexer

  From query text to tokens. Blank lexemes are dropped, every other lexeme becomes a
  token on the line it starts on, and a text that is not lexemes to its end is
  refused at the first character left over.
-/
import QueryLint.Token.Lexeme

namespace QueryLint.Token

open QueryLint.Text

/-- The number of line breaks in a text. -/
def lineBreaks (cs : List Char) : Nat :=
  cs.count '\n'

/-- The text of a lexeme's token: upper case, except that a string literal is kept. -/
def Lexeme.tokenText (l : Lexeme) : String :=
  String.ofList (if l.lexClass = .string then l.text else l.text.map upper)

/-- The token of a lexeme that starts on `line`; blanks have none. -/
def Lexeme.token? (l : Lexeme) (line : Nat) : Option Token :=
  l.lexClass.kind?.map fun kind => ⟨kind, l.tokenText, line⟩

/-- The tokens of lexemes of which the first starts on `line`. -/
def ofLexemes (line : Nat) : List Lexeme → List Token
  | [] => []
  | l :: ls => (l.token? line).toList ++ ofLexemes (line + lineBreaks l.text) ls

/-- The line after lexemes of which the first starts on `line`. -/
def lineAfter (line : Nat) : List Lexeme → Nat
  | [] => line
  | l :: ls => lineAfter (line + lineBreaks l.text) ls

/-- A character at which no lexical class matches. -/
structure LexError where
  character : Char
  /-- The line of the character, counted from 1. -/
  line : Nat
  deriving DecidableEq, Repr

/-- What is reported about such a character. -/
def LexError.message (e : LexError) : String :=
  s!"Invalid character near '{e.character}' at line {e.line}"

/-- The tokens of a text given as characters. -/
def ofChars (cs : List Char) : Except LexError (List Token) :=
  match (cut cs).rest with
  | [] => .ok (ofLexemes 1 (cut cs).lexemes)
  | c :: _ => .error ⟨c, lineAfter 1 (cut cs).lexemes⟩

/-- The tokens of a query text. -/
def tokenize (sql : String) : Except LexError (List Token) :=
  ofChars sql.toList

end QueryLint.Token

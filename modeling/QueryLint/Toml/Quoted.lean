/-
  QueryLint.Toml.Quoted

  The four ways to quote a text in TOML: basic strings with escapes and literal strings
  without, each within a line or over several.
-/
import QueryLint.Text.Reader

namespace QueryLint.Toml

open QueryLint.Text

/-- The blanks within a line. -/
def isSpace (c : Char) : Bool :=
  c == ' ' || c == '\t'

/-- Characters that may stand in a comment or, but for quotes and backslashes, unescaped in a
    string: tabs and all but control characters. -/
def isPrintable (c : Char) : Bool :=
  c == '\t' || (0x20 ≤ c.toNat && c.toNat != 0x7F)

/-- The character that a letter stands for after a backslash. -/
def simpleEscape? (c : Char) : Option Char :=
  if c = 'b' then some '\x08'
  else if c = 't' then some '\t'
  else if c = 'n' then some '\n'
  else if c = 'f' then some '\x0c'
  else if c = 'r' then some '\r'
  else if c = '"' then some '"'
  else if c = '\\' then some '\\'
  else none

/-- The character with a code point of four or eight hexadecimal digits. -/
def codePoint? (digits : List Char) : Option Char :=
  (ofHex? digits).bind scalar?

/-- Put a character in front of what a reader read. -/
def consTo (c : Char) (r : List Char × List Char) : List Char × List Char :=
  (c :: r.1, r.2)

/-! ## Reading -/

/-- A basic string within a line, after its opening quote. -/
def basicBody : Reader (List Char)
  | [] => none
  | '"' :: rest => some ([], rest)
  | '\\' :: 'u' :: a :: b :: c :: d :: rest => do
    let x ← codePoint? [a, b, c, d]
    return consTo x (← basicBody rest)
  | '\\' :: 'U' :: a :: b :: c :: d :: e :: f :: g :: h :: rest => do
    let x ← codePoint? [a, b, c, d, e, f, g, h]
    return consTo x (← basicBody rest)
  | '\\' :: e :: rest => do
    let x ← simpleEscape? e
    return consTo x (← basicBody rest)
  | c :: rest => if isPrintable c && c != '\\' then (basicBody rest).map (consTo c) else none

/-- A literal string within a line, after its opening quote. -/
def literalBody : Reader (List Char)
  | [] => none
  | '\'' :: rest => some ([], rest)
  | c :: rest => if isPrintable c then (literalBody rest).map (consTo c) else none

/-- Drop a line break from the front. -/
def dropLineBreak : List Char → List Char
  | '\n' :: rest => rest
  | '\r' :: '\n' :: rest => rest
  | cs => cs

/-- Whether nothing but blanks stands before the next line break. -/
def endsLine (cs : List Char) : Bool :=
  match cs.dropWhile isSpace with
  | '\n' :: _ => true
  | '\r' :: '\n' :: _ => true
  | _ => false

/-- Up to two quotes that belong to a text right after its first three closing ones: the last three
    of the run close it. -/
def lastQuotes (quote : Char) : List Char → List Char × List Char
  | a :: b :: rest =>
    if a = quote && b = quote then ([quote, quote], rest)
    else if a = quote then ([quote], b :: rest)
    else ([], a :: b :: rest)
  | [a] => if a = quote then ([quote], []) else ([], [a])
  | [] => ([], [])

/-- A basic string over several lines, after its opening quotes. While `trimming`, blanks and line
    breaks are dropped, as after a backslash that ends a line. -/
def basicLinesBody (trimming : Bool) : Reader (List Char)
  | [] => none
  | '"' :: '"' :: '"' :: rest => some (lastQuotes '"' rest)
  | '\\' :: 'u' :: a :: b :: c :: d :: rest => do
    let x ← codePoint? [a, b, c, d]
    return consTo x (← basicLinesBody false rest)
  | '\\' :: 'U' :: a :: b :: c :: d :: e :: f :: g :: h :: rest => do
    let x ← codePoint? [a, b, c, d, e, f, g, h]
    return consTo x (← basicLinesBody false rest)
  | '\\' :: e :: rest =>
    match simpleEscape? e with
    | some x => (basicLinesBody false rest).map (consTo x)
    | none => if endsLine (e :: rest) then basicLinesBody true rest else none
  | '\r' :: '\n' :: rest =>
    if trimming then basicLinesBody true rest else (basicLinesBody false rest).map (consTo '\n')
  | c :: rest =>
    if trimming && (isSpace c || c == '\n') then basicLinesBody true rest
    else if c == '\n' || (isPrintable c && c != '\\') then
      (basicLinesBody false rest).map (consTo c)
    else none

/-- A literal string over several lines, after its opening quotes. -/
def literalLinesBody : Reader (List Char)
  | [] => none
  | '\'' :: '\'' :: '\'' :: rest => some (lastQuotes '\'' rest)
  | '\r' :: '\n' :: rest => (literalLinesBody rest).map (consTo '\n')
  | c :: rest =>
    if c == '\n' || isPrintable c then (literalLinesBody rest).map (consTo c) else none

/-- A quoted text. -/
def quoted : Reader (List Char)
  | '"' :: '"' :: '"' :: rest => basicLinesBody false (dropLineBreak rest)
  | '"' :: rest => basicBody rest
  | '\'' :: '\'' :: '\'' :: rest => literalLinesBody (dropLineBreak rest)
  | '\'' :: rest => literalBody rest
  | _ => none

/-! ## Writing -/

/-- The longest run of a character in a text, given the run just before it and the longest so
    far. -/
def longestRunFrom (c : Char) (run longest : Nat) : List Char → Nat
  | [] => longest
  | x :: xs =>
    if x = c then longestRunFrom c (run + 1) (max longest (run + 1)) xs
    else longestRunFrom c 0 longest xs

/-- The longest run of a character in a text. -/
def longestRun (c : Char) (cs : List Char) : Nat :=
  longestRunFrom c 0 0 cs

/-- Control characters that only an escape can write. -/
def isControl (c : Char) : Bool :=
  (c.toNat ≤ 0x1F && c != '\t' && c != '\n') || c.toNat == 0x7F

/-- The ways to quote a text. -/
inductive Quoting where
  | basic
  | literal
  | basicLines
  | literalLines
  deriving DecidableEq, Repr

/-- How a text is quoted: in the first way of basic, literal, basic over lines and literal over
    lines that needs no escape, else in a basic string, over lines if the text has a line break. -/
def quotingOf (cs : List Char) : Quoting :=
  let control := cs.any isControl
  let backslash := cs.contains '\\'
  let lineBreak := cs.contains '\n'
  let doubles := longestRun '"' cs
  let singles := longestRun '\'' cs
  if !control && !backslash && doubles = 0 && !lineBreak then .basic
  else if !control && singles = 0 && !lineBreak then .literal
  else if !control && !backslash && doubles ≤ 2 then .basicLines
  else if !control && singles ≤ 2 then .literalLines
  else if lineBreak then .basicLines
  else .basic

/-- The upper-case hexadecimal digit of a number below 16. -/
def upperHexDigit (n : Nat) : Char :=
  (Nat.digitChar n).toUpper

/-- The escape of a control character, a letter where there is one. -/
def escapeControl (c : Char) : List Char :=
  if c = '\x08' then ['\\', 'b']
  else if c = '\t' then ['\\', 't']
  else if c = '\n' then ['\\', 'n']
  else if c = '\x0c' then ['\\', 'f']
  else if c = '\r' then ['\\', 'r']
  else ['\\', 'u', '0', '0', upperHexDigit (c.toNat / 16), upperHexDigit (c.toNat % 16)]

/-- The inside of a basic string. Over several lines, line breaks stand as they are and so do up to
    two quotes in a row; `run` counts the quotes just before. -/
def writeBasic (overLines : Bool) (run : Nat) : List Char → List Char
  | [] => []
  | c :: cs =>
    if c = '"' then
      if overLines && run < 2 then c :: writeBasic overLines (run + 1) cs
      else '\\' :: '"' :: writeBasic overLines 0 cs
    else if c = '\\' then '\\' :: '\\' :: writeBasic overLines 0 cs
    else if c = '\n' && overLines then c :: writeBasic overLines 0 cs
    else if c.toNat ≤ 0x1F || c.toNat = 0x7F then escapeControl c ++ writeBasic overLines 0 cs
    else c :: writeBasic overLines 0 cs

/-- The line break after the opening quotes of a text that has line breaks. -/
def leadingBreak (cs : List Char) : List Char :=
  if cs.contains '\n' then ['\n'] else []

/-- A text in quotes. -/
def writeQuoted (cs : List Char) : List Char :=
  match quotingOf cs with
  | .basic => '"' :: writeBasic false 0 cs ++ ['"']
  | .literal => '\'' :: cs ++ ['\'']
  | .basicLines => ['"', '"', '"'] ++ leadingBreak cs ++ writeBasic true 0 cs ++ ['"', '"', '"']
  | .literalLines => ['\'', '\'', '\''] ++ leadingBreak cs ++ cs ++ ['\'', '\'', '\'']

end QueryLint.Toml

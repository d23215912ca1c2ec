/-
  QueryLint.Json.Parser

  Reading JSON. The grammar is strict: no comments, no trailing commas, no leading
  zeros, no control characters in strings, and nothing but blanks after the value.
-/
import QueryLint.Json.Basic

namespace QueryLint.Json

open QueryLint.Text

/-- The four blanks of JSON. -/
def isSpace (c : Char) : Bool :=
  c == ' ' || c == '\n' || c == '\t' || c == '\r'

/-- Drop blanks. -/
def skip (cs : List Char) : List Char :=
  cs.dropWhile isSpace

/-- A string literal, after its opening quote. -/
def stringBody : Reader (List Char)
  | [] => none
  | '"' :: rest => some ([], rest)
  | '\\' :: 'u' :: a :: b :: c :: d :: rest =>
    if [a, b, c, d].all isHex then
      (stringBody rest).map fun r => ('\\' :: 'u' :: a :: b :: c :: d :: r.1, r.2)
    else none
  | '\\' :: e :: rest =>
    if (simpleEscape? e).isSome then (stringBody rest).map fun r => ('\\' :: e :: r.1, r.2)
    else none
  | c :: rest =>
    if c.toNat < 0x20 || c == '\\' then none else (stringBody rest).map fun r => (c :: r.1, r.2)

/-- Digits, at least one. -/
def digits : Reader (List Char) := fun cs =>
  match cs.takeWhile Char.isDigit with
  | [] => none
  | ds => some (ds, cs.dropWhile Char.isDigit)

/-- The whole part of a number: a zero by itself, or digits that do not start with one. -/
def wholePart : Reader (List Char)
  | '0' :: rest => if rest.head?.any Char.isDigit then none else some (['0'], rest)
  | cs => digits cs

/-- The fraction of a number, if there is one. -/
def fractionPart : Reader (List Char)
  | '.' :: rest => (digits rest).map fun r => ('.' :: r.1, r.2)
  | cs => some ([], cs)

/-- The sign of an exponent, if there is one. -/
def exponentSign : List Char → List Char × List Char
  | '+' :: rest => (['+'], rest)
  | '-' :: rest => (['-'], rest)
  | cs => ([], cs)

/-- The exponent of a number, if there is one. -/
def exponentPart : Reader (List Char)
  | [] => some ([], [])
  | c :: rest =>
    if c == 'e' || c == 'E' then
      let sign := exponentSign rest
      (digits sign.2).map fun r => (c :: sign.1 ++ r.1, r.2)
    else some ([], c :: rest)

/-- A number without its sign. -/
def unsigned : Reader (List Char) := fun cs => do
  let (whole, cs) ← wholePart cs
  let (fraction, cs) ← fractionPart cs
  let (exponent, cs) ← exponentPart cs
  return (whole ++ fraction ++ exponent, cs)

/-- A number. -/
def numberLiteral : Reader (List Char)
  | '-' :: rest => (unsigned rest).map fun r => ('-' :: r.1, r.2)
  | cs => unsigned cs

/-- The items of an array, after its opening bracket and with at least one. -/
def arrayItems (item : Reader Json) : Nat → Reader (List Json)
  | 0, _ => none
  | fuel + 1, cs => do
    let (x, cs) ← item cs
    match skip cs with
    | ']' :: cs => return ([x], cs)
    | ',' :: cs => do
      let (xs, cs) ← arrayItems item fuel cs
      return (x :: xs, cs)
    | _ => none

/-- One member of an object: a name, a colon and a value. -/
def member (item : Reader Json) : Reader (List Char × Json) := fun cs =>
  match skip cs with
  | '"' :: cs => do
    let (name, cs) ← stringBody cs
    match skip cs with
    | ':' :: cs => do
      let (x, cs) ← item cs
      return ((name, x), cs)
    | _ => none
  | _ => none

/-- The members of an object, after its opening brace and with at least one. -/
def objectMembers (item : Reader Json) : Nat → Reader (List (List Char × Json))
  | 0, _ => none
  | fuel + 1, cs => do
    let (m, cs) ← member item cs
    match skip cs with
    | '\x7d' :: cs => return ([m], cs)
    | ',' :: cs => do
      let (ms, cs) ← objectMembers item fuel cs
      return (m :: ms, cs)
    | _ => none

/-- A value, blanks before it included. Every level of nesting and every element takes one unit of
    `fuel`. -/
def value : Nat → Reader Json
  | 0, _ => none
  | fuel + 1, cs =>
    match skip cs with
    | '"' :: cs => (stringBody cs).map fun r => (.string r.1, r.2)
    | '[' :: cs =>
      match skip cs with
      | ']' :: cs => some (.array [], cs)
      | cs => (arrayItems (value fuel) fuel cs).map fun r => (.array r.1, r.2)
    | '\x7b' :: cs =>
      match skip cs with
      | '\x7d' :: cs => some (.object [], cs)
      | cs => (objectMembers (value fuel) fuel cs).map fun r => (.object r.1, r.2)
    | 'n' :: cs => (stripWord? ['u', 'l', 'l'] cs).map fun cs => (.null, cs)
    | 't' :: cs => (stripWord? ['r', 'u', 'e'] cs).map fun cs => (.bool true, cs)
    | 'f' :: cs => (stripWord? ['a', 'l', 's', 'e'] cs).map fun cs => (.bool false, cs)
    | cs => (numberLiteral cs).map fun r => (.number r.1, r.2)

/-- The document a text writes. Each unit of nesting or element takes a character, so there is
    always enough fuel. -/
def parse? (text : String) : Option Json := do
  let cs := text.toList
  let (v, rest) ← value (cs.length + 1) cs
  if (skip rest).isEmpty then some v else none

end QueryLint.Json

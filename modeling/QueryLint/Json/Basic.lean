/-
  QueryLint.Json.Basic

  JSON documents. Numbers and strings are kept as they are written, so that a document
  can hold numbers of any size and be skipped over without being understood. What a
  literal stands for is found by `Json.toNat?` and `Json.toText?`.
-/
import QueryLint.Text.Reader

namespace QueryLint

open QueryLint.Text

/-- A JSON value. -/
inductive Json where
  | null
  | bool (b : Bool)
  /-- A number, as written. -/
  | number (literal : List Char)
  /-- A string, as written between its quotes. -/
  | string (literal : List Char)
  | array (items : List Json)
  /-- Members in the order written; a name may be repeated. -/
  | object (members : List (List Char × Json))
  deriving Repr

namespace Json

/-! ## Numbers -/

/-- A natural number. -/
def ofNat (n : Nat) : Json :=
  .number (decimal n)

/-- The natural number that a plain run of digits writes. -/
def naturalOf? (literal : List Char) : Option Nat :=
  if literal.all Char.isDigit then some (ofDecimal literal) else none

/-- The natural number a value is, if it is below `bound`. -/
def toNat? (bound : Nat) : Json → Option Nat
  | .number literal => (naturalOf? literal).filter (· < bound)
  | _ => none

/-! ## Strings -/

/-- The lower-case hexadecimal digit of a number below 16. -/
def hexDigit (n : Nat) : Char :=
  Nat.digitChar n

/-- How one character is written in a string: quotes, backslashes and control characters are
    escaped, by a letter where there is one. -/
def escapeChar (c : Char) : List Char :=
  if c = '"' then ['\\', '"']
  else if c = '\\' then ['\\', '\\']
  else if c = '\x08' then ['\\', 'b']
  else if c = '\x0c' then ['\\', 'f']
  else if c = '\n' then ['\\', 'n']
  else if c = '\r' then ['\\', 'r']
  else if c = '\t' then ['\\', 't']
  else if c.toNat < 0x20 then
    ['\\', 'u', '0', '0', hexDigit (c.toNat / 16), hexDigit (c.toNat % 16)]
  else [c]

/-- How a text is written between quotes. -/
def escape (cs : List Char) : List Char :=
  cs.flatMap escapeChar

/-- A text. -/
def ofText (s : String) : Json :=
  .string (escape s.toList)

/-- The character that a letter stands for after a backslash. -/
def simpleEscape? (c : Char) : Option Char :=
  if c = '"' then some '"'
  else if c = '\\' then some '\\'
  else if c = '/' then some '/'
  else if c = 'b' then some '\x08'
  else if c = 'f' then some '\x0c'
  else if c = 'n' then some '\n'
  else if c = 'r' then some '\r'
  else if c = 't' then some '\t'
  else none

/-- The code units a string literal writes: a character stands for its code point, and an escape of
    four hexadecimal digits for any unit, half a surrogate pair included. -/
def units? : List Char → Option (List Nat)
  | [] => some []
  | '\\' :: 'u' :: a :: b :: c :: d :: rest => do
    let unit ← ofHex? [a, b, c, d]
    return unit :: (← units? rest)
  | '\\' :: e :: rest => do
    let c ← simpleEscape? e
    return c.toNat :: (← units? rest)
  | c :: rest => do return c.toNat :: (← units? rest)

/-- Whether a unit is the first half of a surrogate pair. -/
def isLeading (unit : Nat) : Bool :=
  0xD800 ≤ unit && unit < 0xDC00

/-- Whether a unit is the second half of a surrogate pair. -/
def isTrailing (unit : Nat) : Bool :=
  0xDC00 ≤ unit && unit < 0xE000

/-- The character of a surrogate pair. -/
def ofPair (leading trailing : Nat) : Char :=
  Char.ofNat (0x10000 + (leading - 0xD800) * 0x400 + (trailing - 0xDC00))

/-- The characters of code units; a half of a surrogate pair by itself is none. -/
def joinUnits? : List Nat → Option (List Char)
  | [] => some []
  | unit :: rest =>
    if isLeading unit then
      match rest with
      | [] => none
      | next :: rest =>
        if isTrailing next then (joinUnits? rest).map (ofPair unit next :: ·) else none
    else if isTrailing unit then none
    else (joinUnits? rest).map (Char.ofNat unit :: ·)

/-- The text a string literal writes. -/
def unescape? (literal : List Char) : Option (List Char) :=
  (units? literal).bind joinUnits?

/-- The text a value is. -/
def toText? : Json → Option String
  | .string literal => (unescape? literal).map String.ofList
  | _ => none

/-- The truth value a value is. -/
def toBool? : Json → Option Bool
  | .bool b => some b
  | _ => none

/-! ## Building and taking apart documents -/

/-- An object with the given members. -/
def ofMembers (members : List (String × Json)) : Json :=
  .object (members.map fun m => (escape m.1.toList, m.2))

/-- The members of an object by the texts of their names; a name that is no text spoils the
    object. -/
def namedMembers? (members : List (List Char × Json)) : Option (List (String × Json)) :=
  members.mapM fun m => (unescape? m.1).map fun name => (String.ofList name, m.2)

/-- The only member with this name: `none` within if there is none, and a refusal if there are
    several. -/
def onlyMember? (members : List (String × Json)) (name : String) : Option (Option Json) :=
  match members.filter (·.1 == name) with
  | [] => some none
  | [m] => some (some m.2)
  | _ => none

/-- The values of the declared fields of a record, in order, `none` for a missing one. A record is
    an object, where other members are passed over and no declared one may be repeated, or an array
    of the first values in order. -/
def fields? (names : List String) : Json → Option (List (Option Json))
  | .object members => do
    let named ← namedMembers? members
    names.mapM (onlyMember? named)
  | .array items =>
    if items.length ≤ names.length then
      some (items.map some ++ List.replicate (names.length - items.length) none)
    else none
  | _ => none

/-- The name of an enumeration's value: a text, or an object with that name and `null`. -/
def variantName? : Json → Option String
  | .string literal => (unescape? literal).map String.ofList
  | .object [(name, .null)] => (unescape? name).map String.ofList
  | _ => none

/-- A list, if `item` reads every element. -/
def toList? {α : Type} (item : Json → Option α) : Json → Option (List α)
  | .array items => items.mapM item
  | _ => none

end Json

end QueryLint

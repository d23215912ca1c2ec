/-
  QueryLint.Toml.Parser

  Reading TOML documents: first the lines, by their grammar alone, then the tables they
  make up.
-/
import QueryLint.Toml.Number
import QueryLint.Toml.Quoted

namespace QueryLint.Toml

open QueryLint.Text

/-- Keys of a path and levels of nesting must be fewer than this. -/
def nestingLimit : Nat := 80

/-- Drop the blanks of a line. -/
def skipSpaces (cs : List Char) : List Char :=
  cs.dropWhile isSpace

/-- Drop blanks, line breaks and comments. A carriage return must be part of a line break, and a
    comment holds no control characters. -/
def skipLayout (inComment : Bool) : List Char → Option (List Char)
  | [] => some []
  | '\n' :: cs => skipLayout false cs
  | '\r' :: '\n' :: cs => skipLayout false cs
  | c :: cs =>
    if inComment then if isPrintable c then skipLayout true cs else none
    else if isSpace c then skipLayout false cs
    else if c = '#' then skipLayout true cs
    else if c = '\r' then none
    else some (c :: cs)

/-- What is left after a line is finished: blanks, then a comment or the line's end. -/
def endLine? (cs : List Char) : Option (List Char) :=
  match skipSpaces cs with
  | [] => some []
  | '#' :: cs => some ('#' :: cs)
  | '\n' :: cs => some cs
  | '\r' :: '\n' :: cs => some cs
  | _ => none

/-! ## Keys -/

/-- The characters of a key without quotes. -/
def isBareKey (c : Char) : Bool :=
  c.isAlphanum || c == '-' || c == '_'

/-- One key: bare, or quoted within a line. -/
def simpleKey : Reader String
  | '"' :: cs => (basicBody cs).map fun r => (String.ofList r.1, r.2)
  | '\'' :: cs => (literalBody cs).map fun r => (String.ofList r.1, r.2)
  | cs =>
    match cs.takeWhile isBareKey with
    | [] => none
    | key => some (String.ofList key, cs.dropWhile isBareKey)

/-- A path of at most `room` keys with points between them, and the blanks around it. -/
def keyPath : Nat → Reader (List String)
  | 0, _ => none
  | room + 1, cs => do
    let (key, cs) ← simpleKey (skipSpaces cs)
    match skipSpaces cs with
    | '.' :: cs => do
      let (path, cs) ← keyPath room cs
      return (key :: path, cs)
    | cs => return ([key], cs)

/-- The path of an entry or a header. -/
def path : Reader (List String) :=
  keyPath (nestingLimit - 1)

/-! ## Values -/

/-- The items of an array, after its opening bracket, with an optional comma at the end. -/
def arrayItems (item : Reader Value) : Nat → Reader (List Value)
  | 0, _ => none
  | fuel + 1, cs => do
    match ← skipLayout false cs with
    | ']' :: cs => return ([], cs)
    | cs => do
      let (x, cs) ← item cs
      match ← skipLayout false cs with
      | ']' :: cs => return ([x], cs)
      | ',' :: cs => do
        let (xs, cs) ← arrayItems item fuel cs
        return (x :: xs, cs)
      | _ => none

/-- One pair of an inline table, and the blanks after it. -/
def pair (item : Reader Value) : Reader (List String × Value) := fun cs => do
  let (keys, cs) ← path cs
  let cs ← stripWord? ['='] cs
  let (x, cs) ← item (skipSpaces cs)
  return ((keys, x), skipSpaces cs)

/-- The pairs of an inline table, after its opening brace and with at least one. -/
def tablePairs (item : Reader Value) : Nat → Reader (List (List String × Value))
  | 0, _ => none
  | fuel + 1, cs => do
    let (p, cs) ← pair item cs
    match cs with
    | '\x7d' :: cs => return ([p], cs)
    | ',' :: cs => do
      let (ps, cs) ← tablePairs item fuel cs
      return (p :: ps, cs)
    | _ => none

/-- An inline table, after its opening brace. -/
def inlineTable (item : Reader Value) (cs : List Char) : Option (Value × List Char) :=
  match skipSpaces cs with
  | '\x7d' :: cs => some (.table [], cs)
  | cs => do
    let (pairs, cs) ← tablePairs item cs.length cs
    return (.table (← ofPairs? pairs), cs)

/-- A value within which arrays and tables may nest `room - 1` deep. -/
def value : Nat → Reader Value
  | 0, _ => none
  | room + 1, cs =>
    match cs with
    | '"' :: _ => (quoted cs).map fun r => (.string (String.ofList r.1), r.2)
    | '\'' :: _ => (quoted cs).map fun r => (.string (String.ofList r.1), r.2)
    | '[' :: cs =>
      if room = 0 then none
      else (arrayItems (value room) (cs.length + 1) cs).map fun r => (.array r.1, r.2)
    | '\x7b' :: cs => if room = 0 then none else inlineTable (value room) cs
    | 't' :: cs => (stripWord? ['r', 'u', 'e'] cs).map fun cs => (.boolean true, cs)
    | 'f' :: cs => (stripWord? ['a', 'l', 's', 'e'] cs).map fun cs => (.boolean false, cs)
    | cs => (specialFloat cs).or (number cs)

/-! ## Documents -/

/-- One line that says something. -/
def line : Reader Line
  | '[' :: '[' :: cs => do
    let (keys, cs) ← path cs
    return (.rowHeader keys, ← stripWord? [']', ']'] cs)
  | '[' :: cs => do
    let (keys, cs) ← path cs
    return (.header keys, ← stripWord? [']'] cs)
  | cs => do
    let (keys, cs) ← path cs
    let cs ← stripWord? ['='] cs
    let (x, cs) ← value nestingLimit (skipSpaces cs)
    return (.entry keys x, cs)

/-- The lines of a document that say something. Each takes a character, so the length of the text is
    enough fuel. -/
def lines : Nat → List Char → Option (List Line)
  | 0, _ => none
  | fuel + 1, cs => do
    match ← skipLayout false cs with
    | [] => return []
    | cs => do
      let (l, cs) ← line cs
      let cs ← endLine? cs
      return l :: (← lines fuel cs)

/-- Drop a byte order mark. -/
def dropMark : List Char → List Char
  | '\ufeff' :: cs => cs
  | cs => cs

/-- The lines of a document. -/
def readLines? (text : String) : Option (List Line) :=
  let cs := dropMark text.toList
  lines (cs.length + 1) cs

/-- The table a document writes. -/
def parse? (text : String) : Option (List (String × Value)) :=
  (readLines? text).bind ofLines?

end QueryLint.Toml

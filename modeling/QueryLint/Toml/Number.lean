/-
  QueryLint.Toml.Number

  Numbers and dates of TOML. Integers have 64 bits with a sign; a number with a
  fraction or an exponent must not be too large for a double, and a date must exist.
-/
import QueryLint.Text.Reader
import QueryLint.Toml.Value

namespace QueryLint.Toml

open QueryLint.Text

/-! ## Runs of digits -/

/-- Further digits of a number: single underscores may stand between digits. -/
def moreDigits (isDigit : Char → Bool) : List Char → List Char × List Char
  | '_' :: c :: cs =>
    if isDigit c then let r := moreDigits isDigit cs; (c :: r.1, r.2) else ([], '_' :: c :: cs)
  | c :: cs =>
    if isDigit c then let r := moreDigits isDigit cs; (c :: r.1, r.2) else ([], c :: cs)
  | [] => ([], [])

/-- Digits, at least one, without their underscores. -/
def digitRun (isDigit : Char → Bool) : Reader (List Char)
  | c :: cs =>
    if isDigit c then let r := moreDigits isDigit cs; some (c :: r.1, r.2) else none
  | [] => none

/-- A sign, if there is one; whether it is a minus. -/
def sign : List Char → Bool × List Char
  | '-' :: cs => (true, cs)
  | '+' :: cs => (false, cs)
  | cs => (false, cs)

/-- Decimal digits that do not start with a zero, or a zero by itself. -/
def wholeDigits : Reader (List Char)
  | '0' :: cs => some (['0'], cs)
  | cs => digitRun Char.isDigit cs

/-! ## Integers -/

/-- The least natural number that 64 bits with a sign cannot hold. -/
def integerBound : Nat :=
  Nat.pow 2 63

/-- Whether an integer has 64 bits with its sign. -/
def fits64 (n : Int) : Bool :=
  -Int.ofNat integerBound ≤ n && n < Int.ofNat integerBound

/-- An integer of 64 bits. -/
def integerOf? (n : Int) : Option Value :=
  if fits64 n then some (.integer n) else none

/-- A decimal integer. -/
def decimalInteger : Reader Value := fun cs => do
  let (negative, cs) := sign cs
  let (digits, cs) ← wholeDigits cs
  let n : Int := ofDecimal digits
  return (← integerOf? (if negative then -n else n), cs)

/-- The number that digits below 16 write in a base. -/
def ofBase (base : Nat) (digits : List Char) : Nat :=
  digits.foldl (fun n c => base * n + (hexValue? c).getD 0) 0

/-- An integer in another base, after the mark of the base. -/
def basedInteger (base : Nat) (isDigit : Char → Bool) : Reader Value := fun cs => do
  let (digits, cs) ← digitRun isDigit cs
  return (← integerOf? (ofBase base digits), cs)

/-- An integer. -/
def integer : Reader Value
  | '0' :: 'x' :: cs => basedInteger 16 isHex cs
  | '0' :: 'o' :: cs => basedInteger 8 (fun c => '0' ≤ c && c ≤ '7') cs
  | '0' :: 'b' :: cs => basedInteger 2 (fun c => c == '0' || c == '1') cs
  | cs => decimalInteger cs

/-! ## Numbers with a fraction or an exponent -/

/-- The least natural number that a double cannot hold: it is halfway between the largest double and
    the next power of two. -/
def doubleBound : Nat :=
  Nat.pow 2 1024 - Nat.pow 2 970

/-- Whether `mantissa * 10 ^ exponent` is too large for a double. -/
def overflowsDouble (mantissa : Nat) (exponent : Int) : Bool :=
  let size : Int := (decimal mantissa).length
  -- Powers of ten are only computed near the bound.
  if mantissa = 0 || size + exponent ≤ 308 then false
  else if size + exponent > 310 then true
  else if 0 ≤ exponent then doubleBound ≤ mantissa * Nat.pow 10 exponent.toNat
  else doubleBound * Nat.pow 10 (-exponent).toNat ≤ mantissa

/-- The digits of a fraction, after its point. -/
def fraction : Reader (List Char)
  | '.' :: cs => digitRun Char.isDigit cs
  | _ => none

/-- An exponent. -/
def exponent : Reader Int
  | c :: cs =>
    if c == 'e' || c == 'E' then do
      let (negative, cs) := sign cs
      let (digits, cs) ← digitRun Char.isDigit cs
      let n : Int := ofDecimal digits
      return (if negative then -n else n, cs)
    else none
  | [] => none

/-- The fraction and exponent of a number, of which there must be one. -/
def scaling : Reader (List Char × Int) := fun cs =>
  match exponent cs with
  | some (e, cs) => some (([], e), cs)
  | none => do
    let (f, cs) ← fraction cs
    match exponent cs with
    | some (e, cs) => return ((f, e), cs)
    | none => return ((f, 0), cs)

/-- A number with a fraction or an exponent. Only a positive one is refused as too large. -/
def finiteFloat : Reader Value := fun cs => do
  let (negative, cs) := sign cs
  let (whole, cs) ← wholeDigits cs
  let ((f, e), cs) ← scaling cs
  if !negative && overflowsDouble (ofDecimal (whole ++ f)) (e - f.length) then none
  else return (.float, cs)

/-- Infinity or not a number, with or without a sign. -/
def specialFloat : Reader Value := fun cs =>
  match (sign cs).2 with
  | 'i' :: 'n' :: 'f' :: cs => some (.float, cs)
  | 'n' :: 'a' :: 'n' :: cs => some (.float, cs)
  | _ => none

/-- A number that is no integer. -/
def float : Reader Value := fun cs =>
  (finiteFloat cs).or (specialFloat cs)

/-! ## Dates and times -/

/-- Two digits that write a number from `low` to `high`. -/
def twoDigits (low high : Nat) : Reader Nat
  | a :: b :: cs =>
    let n := ofDecimal [a, b]
    if a.isDigit && b.isDigit && low ≤ n && n ≤ high then some (n, cs) else none
  | _ => none

/-- The year of a date, of four digits. -/
def year : Reader Nat
  | a :: b :: c :: d :: cs =>
    if [a, b, c, d].all Char.isDigit then some (ofDecimal [a, b, c, d], cs) else none
  | _ => none

/-- The number of days of a month. -/
def daysInMonth (year month : Nat) : Nat :=
  if month = 2 then
    if year % 4 = 0 && (year % 100 ≠ 0 || year % 400 = 0) then 29 else 28
  else if month = 4 || month = 6 || month = 9 || month = 11 then 30
  else 31

/-- A date. -/
def date : Reader Unit := fun cs => do
  let (y, cs) ← year cs
  let cs ← stripWord? ['-'] cs
  let (m, cs) ← twoDigits 1 12 cs
  let cs ← stripWord? ['-'] cs
  let (_, cs) ← twoDigits 1 (daysInMonth y m) cs
  return ((), cs)

/-- The fraction of a second, if there is one. -/
def secondFraction : List Char → List Char
  | '.' :: c :: cs => if c.isDigit then cs.dropWhile Char.isDigit else '.' :: c :: cs
  | cs => cs

/-- A time of day. -/
def time : Reader Unit := fun cs => do
  let (_, cs) ← twoDigits 0 23 cs
  let cs ← stripWord? [':'] cs
  let (_, cs) ← twoDigits 0 59 cs
  let cs ← stripWord? [':'] cs
  let (_, cs) ← twoDigits 0 60 cs
  return ((), secondFraction cs)

/-- The offset of a time from universal time. -/
def offset : Reader Unit
  | c :: cs =>
    if c == 'Z' || c == 'z' then some ((), cs)
    else if c == '+' || c == '-' then do
      let (_, cs) ← twoDigits 0 23 cs
      let cs ← stripWord? [':'] cs
      let (_, cs) ← twoDigits 0 59 cs
      return ((), cs)
    else none
  | [] => none

/-- The time after a date, if there is one, with its offset, if there is one. -/
def timeAfterDate : List Char → List Char
  | [] => []
  | c :: cs =>
    if c == 'T' || c == 't' || c == ' ' then
      match time cs with
      | some (_, rest) => ((offset rest).map Prod.snd).getD rest
      | none => c :: cs
    else c :: cs

/-- A date, a time, or both. -/
def dateTime : Reader Value := fun cs =>
  match date cs with
  | some (_, rest) => some (.dateTime, timeAfterDate rest)
  | none => (time cs).map fun r => (.dateTime, r.2)

/-- A value that starts with a digit or a sign. -/
def number : Reader Value := fun cs =>
  ((dateTime cs).or (float cs)).or (integer cs)

end QueryLint.Toml

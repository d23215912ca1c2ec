/-
  QueryLint.Text.Reader

  Readers: functions that read something off the front of a text and give back what
  is left, or refuse. The document formats are read with them.
-/
namespace QueryLint.Text

/-- Reads a value off the front of a text, or refuses. -/
abbrev Reader (α : Type) :=
  List Char → Option (α × List Char)

/-- What is left of a text that begins with `word`. -/
def stripWord? : List Char → List Char → Option (List Char)
  | [], cs => some cs
  | _ :: _, [] => none
  | w :: ws, c :: cs => if w = c then stripWord? ws cs else none

theorem stripWord?_append (word cs : List Char) : stripWord? word (word ++ cs) = some cs := by
  induction word with
  | nil => rfl
  | cons w ws ih => simp [stripWord?, ih]

/-! ## Digits -/

/-- The value of a decimal digit; other characters count for nothing. -/
def digitValue (c : Char) : Nat :=
  c.toNat - '0'.toNat

/-- The number that decimal digits write. -/
def ofDecimal (digits : List Char) : Nat :=
  digits.foldl (fun n c => 10 * n + digitValue c) 0

/-- The decimal digits of a number. -/
def decimal (n : Nat) : List Char :=
  Nat.toDigits 10 n

/-- The value of a hexadecimal digit of either case. -/
def hexValue? (c : Char) : Option Nat :=
  if c.isDigit then some (c.toNat - '0'.toNat)
  else if 'a' ≤ c && c ≤ 'f' then some (c.toNat - 'a'.toNat + 10)
  else if 'A' ≤ c && c ≤ 'F' then some (c.toNat - 'A'.toNat + 10)
  else none

/-- Whether a character is a hexadecimal digit. -/
def isHex (c : Char) : Bool :=
  (hexValue? c).isSome

/-- The number that hexadecimal digits write. -/
def ofHex? (digits : List Char) : Option Nat :=
  digits.foldlM (fun n c => (hexValue? c).map (16 * n + ·)) 0

/-- The character with this code point; there is none for half a surrogate pair and none beyond the
    last code point. -/
def scalar? (n : Nat) : Option Char :=
  if n.isValidChar then some (Char.ofNat n) else none

end QueryLint.Text

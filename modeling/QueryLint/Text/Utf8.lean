/-
  QueryLint.Text.Utf8

  A text in UTF-8: its octets, their number, which is how positions are kept and reported,
  and cutting a part out of a text between two such positions.
-/
namespace QueryLint.Text

/-- A text in UTF-8. -/
def octets (cs : List Char) : List UInt8 :=
  cs.flatMap String.utf8EncodeChar

/-- The number of octets of a text in UTF-8. -/
def utf8Size : List Char → Nat
  | [] => 0
  | c :: cs => c.utf8Size + utf8Size cs

/-- The index of the character that begins at an octet offset; the end of the text counts as one
    more character. An offset within a character, or beyond the text, has none. -/
def charIndex? : List Char → Nat → Option Nat
  | _, 0 => some 0
  | [], _ + 1 => none
  | c :: cs, n + 1 =>
    if c.utf8Size ≤ n + 1 then (charIndex? cs (n + 1 - c.utf8Size)).map (· + 1) else none

/-- The part of a text from one octet offset up to another. There is none if the offsets are out of
    order, leave the text or stand within a character. -/
def slice? (cs : List Char) (start stop : Nat) : Option (List Char) :=
  match charIndex? cs start, charIndex? cs stop with
  | some i, some j => if i ≤ j then some ((cs.take j).drop i) else none
  | _, _ => none

@[simp]
theorem octets_nil : octets [] = [] := rfl

@[simp]
theorem octets_cons (c : Char) (cs : List Char) :
    octets (c :: cs) = String.utf8EncodeChar c ++ octets cs := rfl

@[simp]
theorem octets_append (a b : List Char) : octets (a ++ b) = octets a ++ octets b :=
  List.flatMap_append

@[simp]
theorem utf8Size_nil : utf8Size [] = 0 := rfl

@[simp]
theorem utf8Size_cons (c : Char) (cs : List Char) :
    utf8Size (c :: cs) = c.utf8Size + utf8Size cs := rfl

@[simp]
theorem utf8Size_append (a b : List Char) : utf8Size (a ++ b) = utf8Size a + utf8Size b := by
  induction a with
  | nil => rw [List.nil_append, utf8Size_nil, Nat.zero_add]
  | cons c a ih => rw [List.cons_append, utf8Size_cons, ih, utf8Size_cons, Nat.add_assoc]

end QueryLint.Text

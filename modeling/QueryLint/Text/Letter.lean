/-
  QueryLint.Text.Letter

  Letter case. Dictionary words are written in upper-case ASCII and matched without
  regard to case; besides the two cases of a letter, the long s (U+017F) stands for `S`
  and the Kelvin sign `K` for `K`, as simple case folding has it.
-/
namespace QueryLint.Text

/-- The long s, a spelling of `S`. -/
def longS : Char := '\u017f'

/-- The Kelvin sign, a spelling of `K`. -/
def kelvin : Char := '\u212a'

/-- Whether `c` spells the upper-case ASCII letter (or other character) `w`. -/
def spellsLetter (w c : Char) : Bool :=
  c.toUpper == w || (w == 'S' && c == longS) || (w == 'K' && c == kelvin)

/-- Whether a text begins with a spelling of the word. -/
def spellsWord : List Char → List Char → Bool
  | [], _ => true
  | _ :: _, [] => false
  | w :: ws, c :: cs => spellsLetter w c && spellsWord ws cs

/-- Upper case of a character that can stand in a word, number, operator or symbol: an ASCII letter
    or the long s changes, and the Kelvin sign is a capital letter already. -/
def upper (c : Char) : Char :=
  if c == longS then 'S' else c.toUpper

/-- ASCII upper case of a text; characters outside ASCII stay. -/
def upperAscii (cs : List Char) : List Char :=
  cs.map Char.toUpper

/-- ASCII lower case of a text; characters outside ASCII stay. -/
def lowerAscii (s : String) : String :=
  String.ofList (s.toList.map Char.toLower)

/-- Whether the text holds the word, as a run of consecutive characters. -/
def hasInfix (word : List Char) : List Char → Bool
  | [] => word.isEmpty
  | c :: cs => word.isPrefixOf (c :: cs) || hasInfix word cs

/-- Whether a text holds `SELECT` in any ASCII case. -/
def mentionsSelect (cs : List Char) : Bool :=
  hasInfix ['S', 'E', 'L', 'E', 'C', 'T'] (upperAscii cs)

/-- Whether a text begins with `SELECT` in any ASCII case. -/
def beginsWithSelect (cs : List Char) : Bool :=
  upperAscii (cs.take 6) == ['S', 'E', 'L', 'E', 'C', 'T']

end QueryLint.Text

/-
  QueryLint.Token.Lexeme

  Lexemes: a query text is cut, from left to right, into non-empty runs of
  characters, each belonging to one of nine lexical classes. The classes are tried
  in a fixed order against the remaining text alone, and the first that matches
  wins, whether or not a later one would match more.

  `cut_append` says that nothing is lost: the lexemes followed by what is left are
  the text.
-/
import QueryLint.Text.Blank
import QueryLint.Token.Basic
import QueryLint.Token.Dictionary

namespace QueryLint.Token

open QueryLint.Text

/-- The nine lexical classes. -/
inductive LexClass where
  | keyword
  | aggregate
  | star
  | identifier
  | number
  | string
  | operator
  | symbol
  | blank
  deriving DecidableEq, Repr

/-- The classes in the order they are tried. -/
def LexClass.all : List LexClass :=
  [.keyword, .aggregate, .star, .identifier, .number, .string, .operator, .symbol, .blank]

/-- The class of the token a lexeme becomes; blanks become none. -/
def LexClass.kind? : LexClass → Option Kind
  | keyword => some .keyword
  | aggregate => some .aggregate
  | star => some .star
  | identifier => some .identifier
  | number => some .number
  | string => some .string
  | operator => some .operator
  | symbol => some .symbol
  | blank => none

/-! ## Recognisers

Each gives the length of the match at the beginning of a text, if there is one. -/

/-- The length of the longest beginning whose characters all satisfy `p`. -/
def spanLength (p : Char → Bool) (cs : List Char) : Nat :=
  (cs.takeWhile p).length

/-- A letter or underscore of ASCII: what an identifier begins with. -/
def isIdentStart (c : Char) : Bool :=
  c.isAlpha || c == '_'

/-- An identifier: a letter or underscore, then letters, digits and underscores. -/
def identLength? : List Char → Option Nat
  | [] => none
  | c :: cs => if isIdentStart c then some (spanLength isAsciiWord cs + 1) else none

/-- The length of a fraction, its point included, that ends where a word may end. -/
def fractionLength? : List Char → Option Nat
  | '.' :: cs =>
    let n := spanLength Char.isDigit cs
    if n ≠ 0 && atWordEnd (cs.drop n) then some (n + 1) else none
  | _ => none

/-- A number: digits with an optional fraction, ending where a word may end. A fraction that runs
    into a word is left out of the number. -/
def numberLength? (cs : List Char) : Option Nat :=
  let n := spanLength Char.isDigit cs
  if n = 0 then none
  else match fractionLength? (cs.drop n) with
    | some m => some (n + m)
    | none => if atWordEnd (cs.drop n) then some n else none

/-- The characters up to and including the quote that closes a string literal. A backslash takes the
    next character with it, which must not be a line break. -/
def closingQuote? : List Char → Option Nat
  | [] => none
  | '\'' :: _ => some 1
  | ['\\'] => none
  | '\\' :: c :: cs => if c = '\n' then none else (closingQuote? cs).map (· + 2)
  | _ :: cs => (closingQuote? cs).map (· + 1)

/-- A string literal: single quotes around anything in which no other bare quote stands. -/
def stringLength? : List Char → Option Nat
  | '\'' :: cs => (closingQuote? cs).map (· + 1)
  | _ => none

/-- The operators in the order they are tried; `<` and `>` come before `<=` and `>=`. -/
def operators : List (List Char) :=
  [['='], ['<', '>'], ['!', '='], ['<'], ['>'], ['<', '='], ['>', '='], ['|', '|'], ['&', '&'],
    ['+'], ['-'], ['*'], ['/'], ['%']]

/-- An operator. -/
def operatorLength? (cs : List Char) : Option Nat :=
  (operators.find? fun op => op.isPrefixOf cs).map List.length

/-- The punctuation symbols. -/
def symbols : List Char :=
  ['(', ')', ',', ';', '.']

/-- One character that satisfies `p`. -/
def oneLength? (p : Char → Bool) : List Char → Option Nat
  | [] => none
  | c :: _ => if p c then some 1 else none

/-- A run of white space. -/
def blankLength? (cs : List Char) : Option Nat :=
  let n := spanLength isBlank cs
  if n = 0 then none else some n

/-- The length of a class's match at the beginning of a text. -/
def LexClass.matchLength? : LexClass → List Char → Option Nat
  | keyword, cs => wordLength? keywordLetters cs
  | aggregate, cs => wordLength? aggregateLetters cs
  | star, cs => oneLength? (· == '*') cs
  | identifier, cs => identLength? cs
  | number, cs => numberLength? cs
  | string, cs => stringLength? cs
  | operator, cs => operatorLength? cs
  | symbol, cs => oneLength? (symbols.contains ·) cs
  | blank, cs => blankLength? cs

/-! ## Every match is non-empty and within the text -/

theorem spanLength_le (p : Char → Bool) (cs : List Char) : spanLength p cs ≤ cs.length :=
  (List.takeWhile_prefix p).length_le

theorem spellsWord_length_le {word cs : List Char} (h : spellsWord word cs = true) :
    word.length ≤ cs.length := by
  induction word generalizing cs with
  | nil => simp
  | cons w ws ih =>
    cases cs with
    | nil => simp [spellsWord] at h
    | cons c cs =>
      simp only [spellsWord, Bool.and_eq_true] at h
      simpa using ih h.2

theorem wordLength?_bounds {dictionary : List (List Char)} (hd : ∀ w ∈ dictionary, w ≠ [])
    {cs : List Char} {n : Nat} (h : wordLength? dictionary cs = some n) :
    0 < n ∧ n ≤ cs.length := by
  obtain ⟨word, hw, rfl⟩ := Option.map_eq_some_iff.1 h
  have hs := List.find?_some hw
  simp only [startsWithWord, Bool.and_eq_true] at hs
  exact ⟨List.length_pos_iff.2 (hd word (List.mem_of_find?_eq_some hw)), spellsWord_length_le hs.1⟩

theorem closingQuote?_bounds {cs : List Char} {n : Nat} (h : closingQuote? cs = some n) :
    n ≤ cs.length := by
  fun_induction closingQuote? cs generalizing n with
  | case1 => simp at h
  | case2 => simp at h; simp; omega
  | case3 => simp at h
  | case4 => simp at h
  | case5 c cs hc ih =>
    obtain ⟨m, hm, rfl⟩ := Option.map_eq_some_iff.1 h
    have := ih hm
    simp; omega
  | case6 c cs _ _ _ ih =>
    obtain ⟨m, hm, rfl⟩ := Option.map_eq_some_iff.1 h
    have := ih hm
    simp; omega

theorem fractionLength?_bounds {cs : List Char} {n : Nat} (h : fractionLength? cs = some n) :
    n ≤ cs.length := by
  unfold fractionLength? at h
  split at h
  · next cs =>
    have := spanLength_le Char.isDigit cs
    simp only at h
    split at h
    · simp at h; simp; omega
    · simp at h
  · simp at h

theorem numberLength?_bounds {cs : List Char} {n : Nat} (h : numberLength? cs = some n) :
    0 < n ∧ n ≤ cs.length := by
  have hs := spanLength_le Char.isDigit cs
  unfold numberLength? at h
  simp only at h
  split at h
  · simp at h
  · split at h
    · next m hm =>
      have := fractionLength?_bounds hm
      simp at h this; omega
    · split at h
      · simp at h; omega
      · simp at h

theorem operatorLength?_bounds {cs : List Char} {n : Nat} (h : operatorLength? cs = some n) :
    0 < n ∧ n ≤ cs.length := by
  obtain ⟨op, hop, rfl⟩ := Option.map_eq_some_iff.1 h
  have hp := List.find?_some hop
  refine ⟨?_, (List.isPrefixOf_iff_prefix.1 hp).length_le⟩
  have hmem := List.mem_of_find?_eq_some hop
  have hne : ∀ o ∈ operators, 0 < o.length := by decide
  exact hne op hmem

theorem oneLength?_bounds {p : Char → Bool} {cs : List Char} {n : Nat}
    (h : oneLength? p cs = some n) : 0 < n ∧ n ≤ cs.length := by
  cases cs with
  | nil => simp [oneLength?] at h
  | cons c cs =>
    simp only [oneLength?] at h
    split at h
    · simp at h; simp; omega
    · simp at h

theorem keywordLetters_ne_nil : ∀ w ∈ keywordLetters, w ≠ [] := by
  decide +kernel

theorem aggregateLetters_ne_nil : ∀ w ∈ aggregateLetters, w ≠ [] := by
  decide +kernel

/-- A match takes at least one character and no more than there are. -/
theorem LexClass.matchLength?_bounds {k : LexClass} {cs : List Char} {n : Nat}
    (h : k.matchLength? cs = some n) : 0 < n ∧ n ≤ cs.length := by
  cases k with
  | keyword => exact wordLength?_bounds keywordLetters_ne_nil h
  | aggregate => exact wordLength?_bounds aggregateLetters_ne_nil h
  | star => exact oneLength?_bounds h
  | identifier =>
    simp only [LexClass.matchLength?] at h
    cases cs with
    | nil => simp [identLength?] at h
    | cons c cs =>
      have := spanLength_le isAsciiWord cs
      simp only [identLength?] at h
      split at h
      · simp at h; simp; omega
      · simp at h
  | number => exact numberLength?_bounds h
  | string =>
    simp only [LexClass.matchLength?] at h
    unfold stringLength? at h
    split at h
    · obtain ⟨m, hm, rfl⟩ := Option.map_eq_some_iff.1 h
      have := closingQuote?_bounds hm
      simp; omega
    · simp at h
  | operator => exact operatorLength?_bounds h
  | symbol => exact oneLength?_bounds h
  | blank =>
    have := spanLength_le isBlank cs
    simp only [LexClass.matchLength?, blankLength?] at h
    split at h
    · simp at h
    · simp at h; omega

/-! ## Cutting a text into lexemes -/

/-- The first class that matches at the beginning of a text, with the length of its match. -/
def firstMatch? (cs : List Char) : Option (LexClass × Nat) :=
  LexClass.all.findSome? fun k => (k.matchLength? cs).map fun n => (k, n)

theorem firstMatch?_matchLength? {cs : List Char} {k : LexClass} {n : Nat}
    (h : firstMatch? cs = some (k, n)) : k.matchLength? cs = some n := by
  obtain ⟨k', _, hk⟩ := List.exists_of_findSome?_eq_some h
  obtain ⟨m, hm, he⟩ := Option.map_eq_some_iff.1 hk
  cases he
  exact hm

theorem firstMatch?_bounds {cs : List Char} {k : LexClass} {n : Nat}
    (h : firstMatch? cs = some (k, n)) : 0 < n ∧ n ≤ cs.length :=
  LexClass.matchLength?_bounds (firstMatch?_matchLength? h)

/-- A run of characters with the class it matched. -/
structure Lexeme where
  lexClass : LexClass
  text : List Char
  deriving DecidableEq, Repr

/-- A text cut into lexemes as far as the classes go. -/
structure Cut where
  lexemes : List Lexeme
  /-- What is left where no class matches; empty when the whole text is cut. -/
  rest : List Char
  deriving DecidableEq, Repr

/-- Cut a text into lexemes until it ends or no class matches. -/
def cut (cs : List Char) : Cut :=
  match _h : firstMatch? cs with
  | none => ⟨[], cs⟩
  | some (k, n) =>
    let tail := cut (cs.drop n)
    ⟨⟨k, cs.take n⟩ :: tail.lexemes, tail.rest⟩
termination_by cs.length
decreasing_by
  have := firstMatch?_bounds _h
  simp; omega

theorem cut_of_none {cs : List Char} (h : firstMatch? cs = none) : cut cs = ⟨[], cs⟩ := by
  rw [cut]
  split
  · rfl
  · simp_all

theorem cut_of_some {cs : List Char} {k : LexClass} {n : Nat} (h : firstMatch? cs = some (k, n)) :
    cut cs = ⟨⟨k, cs.take n⟩ :: (cut (cs.drop n)).lexemes, (cut (cs.drop n)).rest⟩ := by
  rw [cut]
  split
  · simp_all
  · next k' n' h' =>
    rw [h] at h'
    cases h'
    rfl

/-- Nothing is lost: the lexemes, then what is left, are the text. -/
theorem cut_append (cs : List Char) :
    ((cut cs).lexemes.map Lexeme.text).flatten ++ (cut cs).rest = cs := by
  fun_induction cut cs with
  | case1 => simp
  | case2 cs k n h tail ih =>
    simp only [tail, List.map_cons, List.flatten_cons, List.append_assoc, ih]
    exact List.take_append_drop n cs

end QueryLint.Token

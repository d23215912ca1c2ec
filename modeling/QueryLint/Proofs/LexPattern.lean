/-
  QueryLint.Proofs.LexPattern

  The nine lexical classes as patterns, and the proof that each recogniser finds what
  its pattern matches: `LexClass.matched?_pattern`.

  The recognisers read ahead and never go back. The patterns do go back: a number
  gives up its fraction, and a word gives way to a longer one, when a word character
  follows. Each lemma therefore shows that every stop but one is turned down.
-/
import QueryLint.Proofs.Pattern
import QueryLint.Token.Lexeme
import Mathlib.Data.List.TakeWhile

namespace QueryLint.Token

open QueryLint.Text

/-! ## The patterns -/

/-- A whole word of a dictionary, in any spelling of its letters: `\b(?:…|…)\b`. -/
def wordPattern (dictionary : List (List Char)) : Pattern :=
  .seq .boundary
    (.seq (.anyOf (dictionary.map fun word => .chain (word.map spellsLetter))) .boundary)

/-- A run of digits: `[0-9]+`. -/
def digits : Pattern :=
  .oneOrMore (.one Char.isDigit)

/-- A fraction with its point: `\.[0-9]+`. -/
def fraction : Pattern :=
  .seq (.one (· == '.')) digits

/-- One piece of the text of a string literal: `[^'\\]|\\.`, where the dot stands for
    anything but a line break. -/
def stringPiece : Pattern :=
  .alt (.one fun c => c != '\'' && c != '\\') (.seq (.one (· == '\\')) (.one (· != '\n')))

/-- The pattern of a lexical class. -/
def LexClass.pattern : LexClass → Pattern
  | keyword => wordPattern keywordLetters
  | aggregate => wordPattern aggregateLetters
  | star => .one (· == '*')
  | identifier => .seq (.one isIdentStart) (.many (.one isAsciiWord))
  | number => .seq .boundary (.seq digits (.seq (.optional fraction) .boundary))
  | string => .seq (.one (· == '\'')) (.seq (.many stringPiece) (.one (· == '\'')))
  | operator => .anyOf (operators.map fun op => .chain (op.map fun c => (c == ·)))
  | symbol => .one (symbols.contains ·)
  | blank => .oneOrMore (.one isBlank)

/-! ## Runs and word boundaries -/

theorem spanLength_cons_of_pos {p : Char → Bool} {c : Char} (hc : p c = true) (cs : List Char) :
    spanLength p (c :: cs) = spanLength p cs + 1 := by
  rw [spanLength, List.takeWhile_cons_of_pos hc]
  rfl

theorem spanLength_cons_of_neg {p : Char → Bool} {c : Char} (hc : ¬ p c = true) (cs : List Char) :
    spanLength p (c :: cs) = 0 := by
  rw [spanLength, List.takeWhile_cons_of_neg hc]
  rfl

theorem take_spanLength (p : Char → Bool) (cs : List Char) :
    cs.take (spanLength p cs) = cs.takeWhile p :=
  (List.prefix_iff_eq_take.1 (List.takeWhile_prefix p)).symm

theorem atBoundary_front (cs : List Char) :
    (Spot.front cs).atBoundary = cs.head?.any isWord := by
  simp [Spot.atBoundary, Spot.front]

/-- After a word character, a boundary is where a word may end. -/
theorem atBoundary_cons {d : Char} (hd : isWord d = true) (r cs : List Char) :
    (Spot.mk (d :: r) cs).atBoundary = atWordEnd cs := by
  cases cs with
  | nil => simp [Spot.atBoundary, atWordEnd, hd]
  | cons c cs => cases hc : isWord c <;> simp [Spot.atBoundary, atWordEnd, hd, hc]

/-- The same for a spot that is reached over some characters, the last a word character. -/
theorem atBoundary_skip {s : Spot} {n : Nat} {d : Char}
    (hlast : (s.rest.take n).getLast? = some d) (hd : isWord d = true) :
    (s.skip n).atBoundary = atWordEnd (s.rest.drop n) := by
  obtain ⟨r, cs⟩ := s
  obtain ⟨front, hfront⟩ := List.getLast?_eq_some_iff.1 hlast
  have hskip : (Spot.mk r cs).skip n = ⟨d :: (front.reverse ++ r), cs.drop n⟩ := by
    simp only [Spot.skip] at hfront ⊢
    rw [hfront]
    simp
  rw [hskip, atBoundary_cons hd]

theorem isWord_of_isDigit {c : Char} (h : c.isDigit = true) : isWord c = true := by
  apply isWord_of_isAsciiWord
  show (c.isAlpha || c.isDigit || c == '_') = true
  rw [h, Bool.or_true, Bool.true_or]

theorem isWord_of_letter {c : Char} (h : c.isUpper = true ∨ c.isLower = true) :
    isWord c = true := by
  apply isWord_of_isAsciiWord
  show (c.isUpper || c.isLower || c.isDigit || c == '_') = true
  rcases h with h | h <;> simp [h]

/-! ## Dictionary words -/

theorem fits_spellsLetter (word cs : List Char) :
    Pattern.fits (word.map spellsLetter) cs = spellsWord word cs := by
  induction word generalizing cs with
  | nil => rfl
  | cons w ws ih =>
    cases cs with
    | nil => rfl
    | cons c cs => rw [List.map_cons, Pattern.fits, spellsWord, ih]

/-- Every character of a spelling spells some letter of the word. -/
theorem exists_letter_of_spellsWord {word cs : List Char} (h : spellsWord word cs = true) :
    ∀ c ∈ cs.take word.length, ∃ w ∈ word, spellsLetter w c = true := by
  induction word generalizing cs with
  | nil => simp
  | cons w ws ih =>
    cases cs with
    | nil => simp
    | cons c cs =>
      rw [spellsWord, Bool.and_eq_true] at h
      intro d hd
      rw [List.length_cons, List.take_succ_cons] at hd
      rcases List.mem_cons.1 hd with rfl | hd
      · exact ⟨w, List.mem_cons_self, h.1⟩
      · obtain ⟨v, hv, hs⟩ := ih h.2 d hd
        exact ⟨v, List.mem_cons_of_mem _ hv, hs⟩

/-- The letters dictionary words are made of. -/
def isWordLetter (w : Char) : Bool :=
  w.isUpper || w == '_'

/-- The dictionary holds no empty word and only words of capital letters and underscores. -/
def Spelled (dictionary : List (List Char)) : Prop :=
  ∀ word ∈ dictionary, word ≠ [] ∧ ∀ w ∈ word, isWordLetter w = true

/-- A dictionary is looked through word by word and letter by letter. -/
theorem spelled_of_all {dictionary : List (List Char)}
    (h : (dictionary.all fun word => !word.isEmpty && word.all isWordLetter) = true) :
    Spelled dictionary := by
  intro word hword
  have hboth := List.all_eq_true.1 h word hword
  rw [Bool.and_eq_true, List.all_eq_true] at hboth
  refine ⟨?_, hboth.2⟩
  rintro rfl
  cases hboth.1

theorem spelled_keywordLetters : Spelled keywordLetters :=
  spelled_of_all (by decide +kernel)

theorem spelled_aggregateLetters : Spelled aggregateLetters :=
  spelled_of_all (by decide +kernel)

/-- What spells a capital letter or an underscore is a word character. -/
theorem isWord_of_spellsLetter {w c : Char} (hw : isWordLetter w = true)
    (h : spellsLetter w c = true) : isWord c = true := by
  simp only [spellsLetter, Bool.or_eq_true, Bool.and_eq_true, beq_iff_eq] at h
  rcases h with (h | ⟨-, h⟩) | ⟨-, h⟩
  · by_cases hl : c.isLower = true
    · exact isWord_of_letter (.inr hl)
    · -- A character that is no small letter is its own upper case.
      have hsmall : ¬ ('a'.val ≤ c.val ∧ c.val ≤ 'z'.val) := by
        rintro ⟨hlow, hhigh⟩
        apply hl
        show (decide ('a'.val ≤ c.val) && decide (c.val ≤ 'z'.val)) = true
        rw [decide_eq_true hlow, decide_eq_true hhigh, Bool.and_self]
      have hself : c.toUpper = c := dif_neg hsmall
      have hc : c = w := by rw [← h, hself]
      subst hc
      simp only [isWordLetter, Bool.or_eq_true, beq_iff_eq] at hw
      rcases hw with hw | hw
      · exact isWord_of_letter (.inl hw)
      · rw [hw]
        decide +kernel
  · rw [h]
    decide +kernel
  · rw [h]
    decide +kernel

/-- The last character of a spelling is a word character. -/
theorem getLast?_of_spellsWord {dictionary : List (List Char)} (hd : Spelled dictionary)
    {word cs : List Char} (hword : word ∈ dictionary) (h : spellsWord word cs = true) :
    ∃ d, (cs.take word.length).getLast? = some d ∧ isWord d = true := by
  have hlen := spellsWord_length_le h
  have hpos := List.length_pos_iff.2 (hd word hword).1
  have hne : cs.take word.length ≠ [] := by
    apply List.ne_nil_of_length_pos
    rw [List.length_take]
    omega
  refine ⟨_, List.getLast?_eq_some_getLast hne, ?_⟩
  obtain ⟨w, hw, hs⟩ := exists_letter_of_spellsWord h _ (List.getLast_mem hne)
  exact isWord_of_spellsLetter ((hd word hword).2 w hw) hs

/-- The first of several single stops that are allowed. -/
theorem head?_flatMap_ite {α β : Type} (p : α → Bool) (f : α → β) (as : List α) :
    (as.flatMap fun a => if p a then [f a] else []).head? = (as.find? p).map f := by
  induction as with
  | nil => rfl
  | cons a as ih =>
    rw [List.flatMap_cons, List.head?_append, ih, List.find?_cons]
    cases p a <;> rfl

/-- A whole word of a dictionary is the first of its words that ends where a word may end. -/
theorem wordPattern_head? {dictionary : List (List Char)} (hd : Spelled dictionary)
    (cs : List Char) :
    ((wordPattern dictionary).stops (.front cs)).head? =
      (wordLength? dictionary cs).map (Spot.front cs).skip := by
  have hword : ∀ word ∈ dictionary,
      ((Pattern.chain (word.map spellsLetter)).stops (.front cs)).flatMap Pattern.boundary.stops =
        if startsWithWord word cs then [(Spot.front cs).skip word.length] else [] := by
    intro word hmem
    rw [Pattern.chain_stops, List.length_map, startsWithWord, Spot.front_rest, fits_spellsLetter]
    by_cases hs : spellsWord word cs = true
    · obtain ⟨d, hlast, hdw⟩ := getLast?_of_spellsWord hd hmem hs
      rw [if_pos hs, List.flatMap_singleton, Pattern.stops_boundary,
        atBoundary_skip (s := .front cs) hlast hdw, hs, Bool.true_and]
      rfl
    · rw [if_neg hs, Bool.eq_false_iff.2 hs, Bool.false_and]
      rfl
  have hall : ((Pattern.anyOf (dictionary.map fun word =>
        .chain (word.map spellsLetter))).stops (.front cs)).flatMap Pattern.boundary.stops =
      dictionary.flatMap fun word =>
        if startsWithWord word cs then [(Spot.front cs).skip word.length] else [] := by
    rw [Pattern.anyOf_stops, List.flatMap_map, List.flatMap_assoc]
    exact List.flatMap_congr hword
  rw [wordPattern, Pattern.stops_seq, Pattern.stops_boundary, atBoundary_front, wordLength?,
    Option.map_map]
  by_cases hfront : cs.head?.any isWord = true
  · rw [if_pos hfront, List.flatMap_singleton, Pattern.stops_seq, hall, head?_flatMap_ite]
    rfl
  · -- No dictionary word is spelled here: its first letter would be a word character.
    have hnone : dictionary.find? (fun word => startsWithWord word cs) = none := by
      rw [List.find?_eq_none]
      intro word hmem hstart
      rw [startsWithWord, Bool.and_eq_true] at hstart
      apply hfront
      obtain ⟨hne, hletters⟩ := hd word hmem
      cases word with
      | nil => exact absurd rfl hne
      | cons w ws =>
        cases cs with
        | nil => simp [spellsWord] at hstart
        | cons c cs =>
          have hc := hstart.1
          rw [spellsWord, Bool.and_eq_true] at hc
          exact isWord_of_spellsLetter (hletters w List.mem_cons_self) hc.1
    rw [if_neg hfront, hnone]
    rfl

/-! ## Numbers -/

/-- Between two digits there is no boundary. -/
theorem boundary_stops_digits (d : Char) (r : List Char) (c : Char) (cs : List Char)
    (hd : d.isDigit = true) (hc : c.isDigit = true) :
    Pattern.boundary.stops ⟨d :: r, c :: cs⟩ = [] := by
  rw [Pattern.stops_boundary, atBoundary_cons (isWord_of_isDigit hd), atWordEnd,
    isWord_of_isDigit hc]
  rfl

/-- The last character of a non-empty run of digits is a digit. -/
theorem getLast?_span_isDigit {cs : List Char} (h : spanLength Char.isDigit cs ≠ 0) :
    ∃ d, (cs.take (spanLength Char.isDigit cs)).getLast? = some d ∧ d.isDigit = true := by
  have hne : cs.takeWhile Char.isDigit ≠ [] := fun he => h (by rw [spanLength, he]; rfl)
  rw [take_spanLength]
  refine ⟨_, List.getLast?_eq_some_getLast hne, ?_⟩
  exact List.mem_takeWhile_imp (List.getLast_mem hne)

/-- A run of digits, followed by something that fails between two digits. -/
theorem digits_flatMap {next : Spot → List Spot}
    (hnext : ∀ d r c cs, d.isDigit = true → c.isDigit = true → next ⟨d :: r, c :: cs⟩ = [])
    (s : Spot) :
    (digits.stops s).flatMap next =
      if spanLength Char.isDigit s.rest = 0 then []
      else next (s.skip (spanLength Char.isDigit s.rest)) :=
  Pattern.oneOrMore_flatMap hnext s

/-- A fraction ends after its last digit or not at all. -/
theorem fraction_flatMap (s : Spot) :
    (fraction.stops s).flatMap Pattern.boundary.stops =
      ((fractionLength? s.rest).map s.skip).toList := by
  obtain ⟨r, cs⟩ := s
  cases cs with
  | nil => rfl
  | cons c cs =>
    rw [fraction, Pattern.stops_seq, Pattern.stops_one_cons]
    by_cases hc : c = '.'
    · subst hc
      rw [if_pos (beq_self_eq_true _), List.flatMap_singleton,
        digits_flatMap boundary_stops_digits]
      simp only [fractionLength?]
      by_cases hn : spanLength Char.isDigit cs = 0
      · rw [if_pos hn, hn]
        rfl
      · obtain ⟨d, hlast, hd⟩ := getLast?_span_isDigit hn
        rw [if_neg hn, Pattern.stops_boundary,
          atBoundary_skip (s := ⟨'.' :: r, cs⟩) hlast (isWord_of_isDigit hd)]
        cases hend : atWordEnd (cs.drop (spanLength Char.isDigit cs)) with
        | false => simp
        | true => simp [hn, Spot.skip_succ_cons]
    · rw [if_neg (by simpa using hc)]
      simp [fractionLength?, hc]

/-- A number is digits with their fraction, else digits alone, where a word may end. -/
theorem number_head? (cs : List Char) :
    (LexClass.number.pattern.stops (.front cs)).head? =
      (numberLength? cs).map (Spot.front cs).skip := by
  have htail : ∀ s : Spot,
      (Pattern.seq (.optional fraction) .boundary).stops s =
        ((fractionLength? s.rest).map s.skip).toList ++ Pattern.boundary.stops s := by
    intro s
    rw [Pattern.stops_seq, Pattern.optional, Pattern.stops_alt, List.flatMap_append,
      fraction_flatMap, Pattern.stops_nothing, List.flatMap_singleton]
  -- Before a digit there is neither a fraction nor a boundary, so the digits cannot end there.
  have hgo : ∀ d r c cs, d.isDigit = true → c.isDigit = true →
      (Pattern.seq (.optional fraction) .boundary).stops ⟨d :: r, c :: cs⟩ = [] := by
    intro d r c cs hd hc
    have hpoint : c ≠ '.' := by
      rintro rfl
      exact absurd hc (by decide)
    rw [htail, boundary_stops_digits d r c cs hd hc]
    simp [fractionLength?, hpoint]
  rw [LexClass.pattern, Pattern.stops_seq, Pattern.stops_boundary, atBoundary_front]
  by_cases hn : spanLength Char.isDigit cs = 0
  · -- Without a digit in front the pattern fails, whatever the boundary says.
    have hnone : numberLength? cs = none := by simp [numberLength?, hn]
    have hdigits : (digits.stops (.front cs)).flatMap
        (Pattern.seq (.optional fraction) .boundary).stops = [] := by
      rw [digits_flatMap hgo, Spot.front_rest, if_pos hn]
    rw [hnone]
    split
    · rw [List.flatMap_singleton, Pattern.stops_seq, hdigits]
      rfl
    · rfl
  · -- The digits end in one place; there a fraction is tried before a plain boundary.
    have hfront : cs.head?.any isWord = true := by
      cases cs with
      | nil => exact absurd rfl hn
      | cons c cs =>
        by_cases hc : c.isDigit = true
        · exact isWord_of_isDigit hc
        · exact absurd (spanLength_cons_of_neg hc cs) hn
    obtain ⟨d, hlast, hd⟩ := getLast?_span_isDigit hn
    rw [if_pos hfront, List.flatMap_singleton, Pattern.stops_seq,
      digits_flatMap hgo, Spot.front_rest, if_neg hn, htail, Pattern.stops_boundary,
      atBoundary_skip (s := .front cs) hlast (isWord_of_isDigit hd)]
    show (((fractionLength? (cs.drop (spanLength Char.isDigit cs))).map _).toList ++
      if atWordEnd (cs.drop (spanLength Char.isDigit cs)) = true then _ else []).head? = _
    simp only [numberLength?, if_neg hn]
    cases fractionLength? (cs.drop (spanLength Char.isDigit cs)) with
    | some m => simp [spanLength, Spot.front]
    | none => split <;> rfl

/-! ## String literals -/

theorem stringPiece_advances : stringPiece.Advances :=
  Pattern.alt_advances (Pattern.one_advances _)
    (Pattern.seq_advances (Pattern.one_advances _) (Pattern.one_advances _))

/-- A character that is a backslash neither at the end of a text nor before a character is
    none. -/
theorem ne_backslash_of_cases {c : Char} {cs : List Char} (hlast : c = '\\' → cs = [] → False)
    (hmore : ∀ d ds, c = '\\' → cs = d :: ds → False) : c ≠ '\\' := by
  intro hc
  cases cs with
  | nil => exact hlast hc rfl
  | cons d ds => exact hmore d ds hc rfl

theorem closingQuote?_cons (c : Char) (cs : List Char) :
    closingQuote? (c :: cs) =
      if c = '\'' then some 1
      else if c = '\\' then
        match cs with
        | [] => none
        | d :: ds => if d = '\n' then none else (closingQuote? ds).map (· + 2)
      else (closingQuote? cs).map (· + 1) := by
  by_cases hquote : c = '\''
  · subst hquote
    rfl
  · rw [if_neg hquote]
    by_cases hslash : c = '\\'
    · subst hslash
      cases cs <;> rfl
    · rw [if_neg hslash]
      cases cs <;> simp [closingQuote?, hslash]

theorem stringLength?_cons (c : Char) (cs : List Char) :
    stringLength? (c :: cs) = if c = '\'' then (closingQuote? cs).map (· + 1) else none := by
  by_cases hc : c = '\''
  · subst hc
    rfl
  · rw [if_neg hc]
    simp [stringLength?, hc]

/-- The pieces of a string literal leave one way to the closing quote: a backslash cannot
    be parted from the character it takes. -/
theorem stringPieces_flatMap (cs r : List Char) :
    ((Pattern.many stringPiece).stops ⟨r, cs⟩).flatMap (Pattern.one (· == '\'')).stops =
      ((closingQuote? cs).map (Spot.mk r cs).skip).toList := by
  have hstep := Pattern.stops_many stringPiece_advances
  fun_induction closingQuote? cs generalizing r with
  | case1 =>
    -- The end of the text.
    have hpiece : stringPiece.stops ⟨r, []⟩ = [] := by simp [stringPiece]
    rw [hstep, hpiece]
    simp
  | case2 cs =>
    -- The closing quote is no piece.
    have hpiece : stringPiece.stops ⟨r, '\'' :: cs⟩ = [] := by simp [stringPiece]
    rw [hstep, hpiece]
    simp [Spot.skip]
  | case3 =>
    -- A backslash with nothing to take.
    have hpiece : stringPiece.stops ⟨r, ['\\']⟩ = [] := by simp [stringPiece]
    rw [hstep, hpiece]
    simp
  | case4 cs =>
    -- A backslash does not take a line break.
    have hpiece : stringPiece.stops ⟨r, '\\' :: '\n' :: cs⟩ = [] := by simp [stringPiece]
    rw [hstep, hpiece]
    simp
  | case5 c cs hc ih =>
    -- An escaped character. Stopping before it leads nowhere: a backslash is no quote.
    have hpiece : stringPiece.stops ⟨r, '\\' :: c :: cs⟩ = [⟨c :: '\\' :: r, cs⟩] := by
      simp [stringPiece, hc]
    rw [hstep, hpiece, List.flatMap_singleton, List.flatMap_append, ih]
    cases closingQuote? cs with
    | none => simp
    | some n => simp [Spot.skip_succ_cons]
  | case6 c cs hquote hlast hslash ih =>
    -- Any other character, before which stopping leads nowhere either.
    have hbackslash := ne_backslash_of_cases hlast hslash
    have hpiece : stringPiece.stops ⟨r, c :: cs⟩ = [⟨c :: r, cs⟩] := by
      simp [stringPiece, hbackslash, show c ≠ '\'' from hquote]
    rw [hstep, hpiece, List.flatMap_singleton, List.flatMap_append, ih]
    cases closingQuote? cs with
    | none => simp [show c ≠ '\'' from hquote]
    | some n => simp [Spot.skip_succ_cons, show c ≠ '\'' from hquote]

theorem string_head? (cs : List Char) :
    (LexClass.string.pattern.stops (.front cs)).head? =
      (stringLength? cs).map (Spot.front cs).skip := by
  rw [LexClass.pattern, Pattern.stops_seq, Spot.front]
  cases cs with
  | nil => rfl
  | cons c cs =>
    rw [Pattern.stops_one_cons]
    by_cases hc : c = '\''
    · subst hc
      rw [if_pos (beq_self_eq_true _), List.flatMap_singleton, Pattern.stops_seq,
        stringPieces_flatMap, stringLength?]
      cases closingQuote? cs with
      | none => rfl
      | some n => simp [Spot.skip_succ_cons]
    · rw [if_neg (by simpa using hc)]
      simp [stringLength?, hc]

/-! ## The other classes -/

theorem one_head? (p : Char → Bool) (cs : List Char) :
    ((Pattern.one p).stops (.front cs)).head? = (oneLength? p cs).map (Spot.front cs).skip := by
  cases cs with
  | nil => rfl
  | cons c cs =>
    rw [Spot.front, Pattern.stops_one_cons, oneLength?]
    split <;> rfl

/-- One character of a class and then a run of another: the run is taken to its end. -/
theorem one_many_head? (p q : Char → Bool) (cs : List Char) :
    ((Pattern.seq (.one p) (.many (.one q))).stops (.front cs)).head? =
      if cs.head?.any p then some ((Spot.front cs).skip (spanLength q cs.tail + 1)) else none := by
  rw [Pattern.stops_seq, Spot.front]
  cases cs with
  | nil => rfl
  | cons c cs =>
    rw [Pattern.stops_one_cons]
    show _ = if p c = true then _ else none
    by_cases hc : p c = true
    · rw [if_pos hc, if_pos hc, List.flatMap_singleton, Pattern.many_one_head?,
        Spot.skip_succ_cons]
      rfl
    · rw [if_neg hc, if_neg hc]
      rfl

theorem identifier_head? (cs : List Char) :
    (LexClass.identifier.pattern.stops (.front cs)).head? =
      (identLength? cs).map (Spot.front cs).skip := by
  rw [LexClass.pattern, one_many_head?]
  cases cs with
  | nil => rfl
  | cons c cs =>
    show (if isIdentStart c = true then _ else none) = _
    rw [identLength?]
    split <;> rfl

theorem blank_head? (cs : List Char) :
    (LexClass.blank.pattern.stops (.front cs)).head? =
      (blankLength? cs).map (Spot.front cs).skip := by
  rw [LexClass.pattern, Pattern.oneOrMore, one_many_head?]
  cases cs with
  | nil => rfl
  | cons c cs =>
    show (if isBlank c = true then _ else none) = _
    rw [blankLength?]
    by_cases hc : isBlank c = true
    · rw [if_pos hc, spanLength_cons_of_pos hc]
      rfl
    · rw [if_neg hc, spanLength_cons_of_neg hc]
      rfl

theorem fits_beq (op cs : List Char) :
    Pattern.fits (op.map fun c => (c == ·)) cs = op.isPrefixOf cs := by
  induction op generalizing cs with
  | nil => rfl
  | cons w ws ih =>
    cases cs with
    | nil => rfl
    | cons c cs => rw [List.map_cons, Pattern.fits, List.isPrefixOf, ih]

theorem operator_head? (cs : List Char) :
    (LexClass.operator.pattern.stops (.front cs)).head? =
      (operatorLength? cs).map (Spot.front cs).skip := by
  have hop : ∀ op ∈ operators,
      (Pattern.chain (op.map fun c => (c == ·))).stops (.front cs) =
        if op.isPrefixOf cs then [(Spot.front cs).skip op.length] else [] := by
    intro op _
    rw [Pattern.chain_stops, List.length_map, Spot.front_rest, fits_beq]
  rw [LexClass.pattern, Pattern.anyOf_stops, List.flatMap_map, List.flatMap_congr hop,
    head?_flatMap_ite, operatorLength?, Option.map_map]
  rfl

/-- The preferred stop of each class's pattern is where its recogniser ends. -/
theorem LexClass.pattern_head? (k : LexClass) (cs : List Char) :
    (k.pattern.stops (.front cs)).head? = (k.matchLength? cs).map (Spot.front cs).skip := by
  cases k with
  | keyword => exact wordPattern_head? spelled_keywordLetters cs
  | aggregate => exact wordPattern_head? spelled_aggregateLetters cs
  | star => exact one_head? _ cs
  | identifier => exact identifier_head? cs
  | number => exact number_head? cs
  | string => exact string_head? cs
  | operator => exact operator_head? cs
  | symbol => exact one_head? _ cs
  | blank => exact blank_head? cs

/-- A recogniser finds what the pattern of its class matches. -/
theorem LexClass.matched?_pattern (k : LexClass) (cs : List Char) :
    k.pattern.matched? cs = (k.matchLength? cs).map fun n => cs.take n := by
  rw [Pattern.matched?, k.pattern_head?, Option.map_map]
  congr 1
  funext n
  exact Spot.skip_front_read cs n

-- The fraction is given up where a word character follows it.
example : LexClass.number.pattern.matched? ['1', '.', '5', 'a'] = some ['1'] := by decide +kernel

end QueryLint.Token

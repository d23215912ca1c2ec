/-
  QueryLint.Proofs.Malformed

  Where the lexer gives up. `Malformed` lists the four ways in which a text can begin so that
  no lexical class matches there: a number that runs into a word, a string literal that does
  not close, half of an operator, and a character that begins nothing.

  A class matches only behind the characters it may begin with (`LexClass.mayBegin`). So the
  first character of a text leaves one class to look at: numbers for a digit, string literals
  for a quote, operators for half of one. What is left are dictionary words that are spelled
  with one of the two foreign letters at their front.

  `rejects_exactly_malformed` says that these are the places where no class matches, and that
  a text has no tokens exactly if its lexemes lead up to one of them.
-/
import QueryLint.Proofs.TokenTexts

namespace QueryLint.Token

open QueryLint.Text

/-- The characters that lexemes begin with, apart from words, numbers and white space. -/
def punctuation : List Char :=
  ['\'', '*', '=', '<', '>', '!', '|', '&', '+', '-', '/', '%', '(', ')', ',', ';', '.']

/-- The operators of which the first half is none. -/
def pairs : List (Char × Char) :=
  [('!', '='), ('|', '|'), ('&', '&')]

/-- The text begins with something that belongs to no lexical class. -/
inductive Malformed : List Char → Prop
  /-- Digits, and after the last of them a word goes on. -/
  | number {digits : List Char} {c : Char} {cs : List Char} :
    digits ≠ [] → (∀ d ∈ digits, d.isDigit = true) → c.isDigit = false → isWord c = true →
      Malformed (digits ++ c :: cs)
  /-- A quote, but no pieces up to another one. -/
  | literal {cs : List Char} :
    (¬ ∃ body rest, cs = body ++ '\'' :: rest ∧ Pieces body) → Malformed ('\'' :: cs)
  /-- The first half of an operator without the second. -/
  | half {c d : Char} {cs : List Char} :
    (c, d) ∈ pairs → cs.head? ≠ some d → Malformed (c :: cs)
  /-- A character that begins nothing, not even as a foreign spelling of a letter. -/
  | stray {c : Char} {cs : List Char} :
    isAsciiWord c = false → isBlank c = false → c ∉ punctuation →
      ¬ ((c = longS ∨ c = kelvin) ∧
        BeginsWithWord (keywordLetters ++ aggregateLetters) (c :: cs)) →
      Malformed (c :: cs)

/-! ## What a class may begin with -/

/-- Whether a dictionary word may be spelled with this character at its front. -/
def mayBeginWord (c : Char) : Bool :=
  isIdentStart c || c == longS || c == kelvin

/-- Whether a lexeme of the class may begin with this character. -/
def LexClass.mayBegin : LexClass → Char → Bool
  | keyword, c => mayBeginWord c
  | aggregate, c => mayBeginWord c
  | star, c => c == '*'
  | identifier, c => isIdentStart c
  | number, c => c.isDigit
  | string, c => c == '\''
  | operator, c => operators.any fun op => op.head? == some c
  | symbol, c => symbols.contains c
  | blank, c => isBlank c

theorem wordLength?_of_not_mayBeginWord {dictionary : List (List Char)} (hd : Spelled dictionary)
    {c : Char} (h : mayBeginWord c = false) (cs : List Char) :
    wordLength? dictionary (c :: cs) = none := by
  simp only [mayBeginWord, Bool.or_eq_false_iff, beq_eq_false_iff_ne] at h
  obtain ⟨⟨hstart, hlong⟩, hkelvin⟩ := h
  rw [wordLength?, Option.map_eq_none_iff, List.find?_eq_none]
  intro word hword hstarts
  rw [startsWithWord, Bool.and_eq_true] at hstarts
  rw [isIdentStart_of_spellsWord hd hword hstarts.1 hlong hkelvin] at hstart
  cases hstart

theorem operatorLength?_of_not_mayBegin {c : Char} (h : LexClass.operator.mayBegin c = false)
    (cs : List Char) : operatorLength? (c :: cs) = none := by
  rw [operatorLength?, Option.map_eq_none_iff, List.find?_eq_none]
  intro op hop hfront
  have hhead := List.any_eq_false.1 h op hop
  cases op with
  | nil => exact absurd hop (by decide)
  | cons x op =>
    rw [List.isPrefixOf_cons_cons, Bool.and_eq_true, beq_iff_eq] at hfront
    simp [hfront.1] at hhead

/-- A class does not match where no lexeme of it may begin. -/
theorem LexClass.matchLength?_of_not_mayBegin {k : LexClass} {c : Char}
    (h : k.mayBegin c = false) (cs : List Char) : k.matchLength? (c :: cs) = none := by
  cases k with
  | keyword => exact wordLength?_of_not_mayBeginWord spelled_keywordLetters h cs
  | aggregate => exact wordLength?_of_not_mayBeginWord spelled_aggregateLetters h cs
  | star => exact if_neg (Bool.eq_false_iff.1 h)
  | identifier => exact if_neg (Bool.eq_false_iff.1 h)
  | number => exact if_pos (spanLength_cons_of_neg (Bool.eq_false_iff.1 h) cs)
  | string => exact (stringLength?_cons c cs).trans (if_neg (beq_eq_false_iff_ne.1 h))
  | operator => exact operatorLength?_of_not_mayBegin h cs
  | symbol => exact if_neg (Bool.eq_false_iff.1 h)
  | blank => exact if_pos (spanLength_cons_of_neg (Bool.eq_false_iff.1 h) cs)

/-- The digits of ASCII. -/
def digitList : List Char :=
  (List.range 10).map fun i => Char.ofNat (48 + i)

theorem mem_digitList {c : Char} (h : c.isDigit = true) : c ∈ digitList := by
  simp only [Char.isDigit, Bool.and_eq_true, decide_eq_true_eq, ge_iff_le,
    UInt32.le_iff_toNat_le] at h
  have hzero : '0'.val.toNat = 48 := rfl
  have hnine : '9'.val.toNat = 57 := rfl
  have hn : c.val.toNat = c.toNat := rfl
  refine List.mem_map.2 ⟨c.toNat - 48, List.mem_range.2 (by omega), ?_⟩
  rw [Nat.add_sub_cancel' (by omega), Char.ofNat_toNat]

/-- A digit begins numbers only. -/
theorem LexClass.mayBegin_digit {k : LexClass} (hk : k ≠ .number) {c : Char}
    (hc : c.isDigit = true) : k.mayBegin c = false := by
  have hall : ∀ k ∈ LexClass.all, k = .number ∨ (digitList.all fun c => !k.mayBegin c) = true := by
    decide
  have hdigits := (hall k k.mem_all).resolve_left hk
  exact Bool.not_eq_true' _ ▸ List.all_eq_true.1 hdigits c (mem_digitList hc)

/-- A quote begins string literals only. -/
theorem LexClass.mayBegin_quote {k : LexClass} (hk : k ≠ .string) : k.mayBegin '\'' = false := by
  revert hk
  cases k <;> decide

/-- The first half of an operator begins operators only. -/
theorem LexClass.mayBegin_half {k : LexClass} (hk : k ≠ .operator) {c d : Char}
    (hc : (c, d) ∈ pairs) : k.mayBegin c = false := by
  have hall : ∀ k ∈ LexClass.all, k = .operator ∨ (pairs.all fun p => !k.mayBegin p.1) = true := by
    decide
  have hpairs := (hall k k.mem_all).resolve_left hk
  exact Bool.not_eq_true' _ ▸ List.all_eq_true.1 hpairs (c, d) hc

/-- What a lexeme begins with is a word character of ASCII, white space or punctuation, unless
    the lexeme is a dictionary word with a foreign letter at its front. -/
theorem LexClass.mayBegin_cases {k : LexClass} {c : Char} (h : k.mayBegin c = true) :
    isAsciiWord c = true ∨ isBlank c = true ∨ c ∈ punctuation ∨
      ((c = longS ∨ c = kelvin) ∧ (k = .keyword ∨ k = .aggregate)) := by
  have hword : mayBeginWord c = true → isAsciiWord c = true ∨ c = longS ∨ c = kelvin := by
    intro hbegin
    simp only [mayBeginWord, Bool.or_eq_true, beq_iff_eq, or_assoc] at hbegin
    exact hbegin.imp_left isAsciiWord_of_isIdentStart
  cases k with
  | keyword => exact (hword h).imp_right fun hc => .inr (.inr ⟨hc, .inl rfl⟩)
  | aggregate => exact (hword h).imp_right fun hc => .inr (.inr ⟨hc, .inr rfl⟩)
  | star =>
    rw [LexClass.mayBegin, beq_iff_eq] at h
    exact .inr (.inr (.inl (h ▸ by decide)))
  | identifier => exact .inl (isAsciiWord_of_isIdentStart h)
  | number => exact .inl (isAsciiWord_of_isDigit h)
  | string =>
    rw [LexClass.mayBegin, beq_iff_eq] at h
    exact .inr (.inr (.inl (h ▸ by decide)))
  | operator =>
    have hall : (operators.all fun op => op.head?.all punctuation.contains) = true := by decide
    obtain ⟨op, hop, hhead⟩ := List.any_eq_true.1 h
    have hmem := List.all_eq_true.1 hall op hop
    rw [beq_iff_eq.1 hhead, Option.all_some, List.contains_iff_mem] at hmem
    exact .inr (.inr (.inl hmem))
  | symbol =>
    have hall : symbols.all punctuation.contains = true := by decide
    have hmem := List.all_eq_true.1 hall c (List.contains_iff_mem.1 h)
    exact .inr (.inr (.inl (List.contains_iff_mem.1 hmem)))
  | blank => exact .inr (.inl h)

/-! ## When the one class left does not match -/

theorem beginsWithWord_append {dictionary dictionary' : List (List Char)} {cs : List Char} :
    BeginsWithWord (dictionary ++ dictionary') cs ↔
      BeginsWithWord dictionary cs ∨ BeginsWithWord dictionary' cs := by
  simp only [BeginsWithWord, List.mem_append, or_and_right, exists_or]

/-- Digits are no number exactly if a word goes on behind them. -/
theorem numberLength?_eq_none_iff {cs : List Char} (h : spanLength Char.isDigit cs ≠ 0) :
    numberLength? cs = none ↔ atWordEnd (cs.drop (spanLength Char.isDigit cs)) = false := by
  simp only [numberLength?, if_neg h]
  cases hrest : cs.drop (spanLength Char.isDigit cs) with
  | nil => simp [fractionLength?, atWordEnd]
  | cons c rest =>
    cases hfraction : fractionLength? (c :: rest) with
    | none => simp
    | some m =>
      -- Before a fraction a word may end, since the point is no word character.
      rw [fractionLength?_cons] at hfraction
      split at hfraction
      · rename_i hpoint
        have hend : isWord c = false := by rw [hpoint.1]; decide
        simp [atWordEnd, hend]
      · cases hfraction

theorem closingQuote?_eq_none_iff {cs : List Char} :
    closingQuote? cs = none ↔ ¬ ∃ body rest, cs = body ++ '\'' :: rest ∧ Pieces body := by
  constructor
  · rintro h ⟨body, rest, rfl, hbody⟩
    rw [closingQuote?_of_pieces hbody] at h
    cases h
  · intro h
    cases hn : closingQuote? cs with
    | none => rfl
    | some n =>
      obtain ⟨body, rest, htext, hbody, -⟩ := pieces_of_closingQuote? hn
      exact absurd ⟨body, rest, htext, hbody⟩ h

theorem operatorLength?_half_eq_none_iff {c d : Char} (h : (c, d) ∈ pairs) (cs : List Char) :
    operatorLength? (c :: cs) = none ↔ cs.head? ≠ some d := by
  simp only [pairs, List.mem_cons, Prod.mk.injEq, List.not_mem_nil, or_false] at h
  cases cs with
  | nil => rcases h with ⟨rfl, rfl⟩ | ⟨rfl, rfl⟩ | ⟨rfl, rfl⟩ <;> simp <;> decide
  | cons x cs =>
    rw [List.head?_cons, Ne, Option.some.injEq, ← Ne, ne_comm]
    rcases h with ⟨rfl, rfl⟩ | ⟨rfl, rfl⟩ | ⟨rfl, rfl⟩ <;> simp [operatorLength?, operators]

/-! ## The malformed places -/

theorem spanLength_of_forall {p : Char → Bool} {cs : List Char} (h : ∀ c ∈ cs, p c = true) :
    spanLength p cs = cs.length := by
  rw [spanLength, List.takeWhile_eq_self_iff.2 h]

/-- At a malformed place no class matches. -/
theorem Malformed.matchLength? {cs : List Char} (h : Malformed cs) (k : LexClass) :
    k.matchLength? cs = none := by
  cases h with
  | @number digits c rest hne hdigits hc hword =>
    obtain ⟨d, ds, rfl⟩ := List.exists_cons_of_ne_nil hne
    by_cases hk : k = .number
    · subst hk
      have hspan : spanLength Char.isDigit (d :: ds ++ c :: rest) = (d :: ds).length := by
        rw [spanLength_append (by simpa using hc), spanLength_of_forall hdigits]
      refine (numberLength?_eq_none_iff (by rw [hspan]; exact Nat.succ_ne_zero _)).2 ?_
      rw [hspan, List.drop_left, atWordEnd, hword]
      rfl
    · exact LexClass.matchLength?_of_not_mayBegin
        (LexClass.mayBegin_digit hk (hdigits d List.mem_cons_self)) _
  | @literal rest hopen =>
    by_cases hk : k = .string
    · subst hk
      rw [LexClass.matchLength?, stringLength?_cons, if_pos rfl, closingQuote?_eq_none_iff.2 hopen]
      rfl
    · exact LexClass.matchLength?_of_not_mayBegin (LexClass.mayBegin_quote hk) _
  | @half c d rest hpair hhead =>
    by_cases hk : k = .operator
    · subst hk
      exact (operatorLength?_half_eq_none_iff hpair rest).2 hhead
    · exact LexClass.matchLength?_of_not_mayBegin (LexClass.mayBegin_half hk hpair) _
  | @stray c rest hascii hblank hpunctuation hword =>
    cases hbegin : k.mayBegin c with
    | false => exact LexClass.matchLength?_of_not_mayBegin hbegin _
    | true =>
      rcases LexClass.mayBegin_cases hbegin with h | h | h | ⟨hforeign, hk⟩
      · exact absurd h (Bool.eq_false_iff.1 hascii)
      · exact absurd h (Bool.eq_false_iff.1 hblank)
      · exact absurd h hpunctuation
      · -- The foreign letter would be the front of a word of one of the two dictionaries.
        rw [beginsWithWord_append] at hword
        rcases hk with rfl | rfl
        · exact wordLength?_eq_none_iff.2 fun hkeyword => hword ⟨hforeign, .inl hkeyword⟩
        · exact wordLength?_eq_none_iff.2 fun haggregate => hword ⟨hforeign, .inr haggregate⟩

theorem isIdentStart_or_isDigit {c : Char} (h : isAsciiWord c = true) :
    isIdentStart c = true ∨ c.isDigit = true := by
  change (c.isAlpha || c.isDigit || c == '_') = true at h
  simp only [isIdentStart, Bool.or_eq_true] at h ⊢
  tauto

theorem drop_spanLength (p : Char → Bool) (cs : List Char) :
    cs.drop (spanLength p cs) = cs.dropWhile p := by
  have hsplit : cs.takeWhile p ++ cs.drop (spanLength p cs) = cs.takeWhile p ++ cs.dropWhile p := by
    rw [← take_spanLength, List.take_append_drop, take_spanLength, List.takeWhile_append_dropWhile]
  exact List.append_cancel_left hsplit

/-- Digits that are no number run into a word. -/
theorem malformed_of_digit {c : Char} {cs : List Char} (hc : c.isDigit = true)
    (h : numberLength? (c :: cs) = none) : Malformed (c :: cs) := by
  have hspan : spanLength Char.isDigit (c :: cs) ≠ 0 := by
    rw [spanLength_cons_of_pos hc]
    exact Nat.succ_ne_zero _
  have hend := (numberLength?_eq_none_iff hspan).1 h
  rw [drop_spanLength] at hend
  have hsplit := List.takeWhile_append_dropWhile (p := Char.isDigit) (l := c :: cs)
  have hstop := List.head?_dropWhile_not Char.isDigit (c :: cs)
  cases hrest : (c :: cs).dropWhile Char.isDigit with
  | nil =>
    rw [hrest] at hend
    cases hend
  | cons d rest =>
    rw [hrest] at hend hstop hsplit
    rw [← hsplit]
    have hword : isWord d = true := by simpa [atWordEnd] using hend
    refine .number ?_ (fun x hx => List.mem_takeWhile_imp hx) hstop hword
    rw [List.takeWhile_cons_of_pos hc]
    exact List.cons_ne_nil _ _

/-- Punctuation that begins neither string literals nor pairs is a lexeme by itself. -/
theorem exists_matchLength?_of_mem_punctuation {c : Char} (h : c ∈ punctuation) (hquote : c ≠ '\'')
    (hpair : ∀ d, (c, d) ∉ pairs) (cs : List Char) :
    ∃ k : LexClass, k.matchLength? (c :: cs) ≠ none := by
  have hall : (punctuation.all fun c => c == '\'' || pairs.any (·.1 == c) ||
      operators.contains [c] || symbols.contains c) = true := by decide
  have hcases := List.all_eq_true.1 hall c h
  simp only [Bool.or_eq_true, beq_iff_eq, List.any_eq_true, List.contains_iff_mem] at hcases
  rcases hcases with ((hc | ⟨⟨x, d⟩, hd, rfl⟩) | hoperator) | hsymbol
  · exact absurd hc hquote
  · exact absurd hd (hpair d)
  · refine ⟨.operator, fun hnone => ?_⟩
    rw [LexClass.matchLength?, operatorLength?, Option.map_eq_none_iff] at hnone
    exact List.find?_eq_none.1 hnone [c] hoperator (by simp)
  · refine ⟨.symbol, fun hnone => ?_⟩
    simp [LexClass.matchLength?, oneLength?, hsymbol] at hnone

/-- Where no class matches, the text is malformed. -/
theorem malformed_of_matchLength? {c : Char} {cs : List Char}
    (h : ∀ k : LexClass, k.matchLength? (c :: cs) = none) : Malformed (c :: cs) := by
  by_cases hdigit : c.isDigit = true
  · exact malformed_of_digit hdigit (h .number)
  by_cases hquote : c = '\''
  · subst hquote
    have hclosing := h .string
    rw [LexClass.matchLength?, stringLength?_cons, if_pos rfl, Option.map_eq_none_iff] at hclosing
    exact .literal (closingQuote?_eq_none_iff.1 hclosing)
  by_cases hpair : ∃ d, (c, d) ∈ pairs
  · obtain ⟨d, hd⟩ := hpair
    exact .half hd ((operatorLength?_half_eq_none_iff hd cs).1 (h .operator))
  refine .stray ?_ ?_ ?_ ?_
  · rw [Bool.eq_false_iff]
    intro hascii
    have hstart := (isIdentStart_or_isDigit hascii).resolve_right hdigit
    have hidentifier := h .identifier
    rw [LexClass.matchLength?, identLength?, if_pos hstart] at hidentifier
    cases hidentifier
  · rw [Bool.eq_false_iff]
    intro hblank
    have hrun := h .blank
    simp [LexClass.matchLength?, blankLength?, spanLength_cons_of_pos hblank] at hrun
  · intro hpunctuation
    obtain ⟨k, hk⟩ := exists_matchLength?_of_mem_punctuation hpunctuation hquote
      (not_exists.1 hpair) cs
    exact hk (h k)
  · rintro ⟨-, hword⟩
    rcases beginsWithWord_append.1 hword with hkeyword | haggregate
    · exact wordLength?_eq_none_iff.1 (h .keyword) hkeyword
    · exact wordLength?_eq_none_iff.1 (h .aggregate) haggregate

theorem malformed_iff {c : Char} {cs : List Char} :
    Malformed (c :: cs) ↔ firstMatch? (c :: cs) = none := by
  constructor
  · intro h
    rw [firstMatch?, List.findSome?_eq_none_iff]
    intro k _
    rw [h.matchLength? k]
    rfl
  · intro h
    apply malformed_of_matchLength?
    intro k
    exact Option.map_eq_none_iff.1 (List.findSome?_eq_none_iff.1 h k k.mem_all)

theorem Malformed.ne_nil {cs : List Char} (h : Malformed cs) : cs ≠ [] := by
  cases h with
  | number => simp
  | literal => exact List.cons_ne_nil _ _
  | half => exact List.cons_ne_nil _ _
  | stray => exact List.cons_ne_nil _ _

/-- The lexer rejects exactly the malformed places: of all texts that are not empty, no class
    matches at those that are malformed and at no others, and a text has no tokens exactly if
    lexemes, each the first match at its place, lead up to a malformed rest. -/
theorem rejects_exactly_malformed :
    (∀ c cs, (∀ k : LexClass, k.pattern.matched? (c :: cs) = none) ↔ Malformed (c :: cs)) ∧
      ∀ sql : String, (∃ e, tokenize sql = .error e) ↔
        ∃ ls r, sql.toList = textOf ls ++ r ∧ Lexed ls r ∧ Malformed r := by
  constructor
  · intro c cs
    rw [← firstMatch?_eq_none_iff, malformed_iff]
  · intro sql
    constructor
    · rintro ⟨⟨c, line⟩, herror⟩
      obtain ⟨cs, hrest, -⟩ := tokenize_eq_error_iff.1 herror
      obtain ⟨ls, htext, hlexed, hnone, -⟩ := (cut_and_iff (P := fun _ => True)).1 ⟨hrest, trivial⟩
      exact ⟨ls, c :: cs, htext, hlexed, malformed_iff.2 hnone⟩
    · rintro ⟨ls, r, htext, hlexed, hmalformed⟩
      obtain ⟨c, cs, rfl⟩ := List.exists_cons_of_ne_nil hmalformed.ne_nil
      have hcut := cut_eq_iff.2 ⟨htext, hlexed, malformed_iff.1 hmalformed⟩
      exact ⟨_, tokenize_eq_error_iff.2 ⟨cs, by rw [hcut], rfl⟩⟩

/-- An exponent: the lexemes `1` and `.` lead up to digits that run into a word. -/
theorem rejects_exactly_malformed_exponent :
    (∀ k : LexClass, k.pattern.matched? "5e3".toList = none) ∧
      ∃ e, tokenize "1.5e3" = .error e := by
  have hmalformed : Malformed (['5'] ++ 'e' :: ['3']) :=
    .number (by decide) (List.forall_mem_singleton.2 (by decide)) (by decide) (by decide)
  have hcut : cut "1.5e3".toList = ⟨[⟨.number, ['1']⟩, ⟨.symbol, ['.']⟩], "5e3".toList⟩ := by
    decide +kernel
  obtain ⟨htext, hlexed, -⟩ := cut_eq_iff.1 hcut
  refine ⟨(rejects_exactly_malformed.1 '5' ['e', '3']).2 hmalformed, ?_⟩
  exact (rejects_exactly_malformed.2 "1.5e3").2 ⟨_, _, htext, hlexed, hmalformed⟩

end QueryLint.Token

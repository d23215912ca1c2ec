/-
  QueryLint.Proofs.WholeWords

  Words are looked up whole. In a text without the two foreign letters, a keyword, an aggregate
  or an identifier is a run of word characters that is not part of a longer one, and which of
  the three it is depends on its upper case alone (`wordClass_iff`).

  The lexer looks for dictionary words at the front of what is left and sees only whether a word
  may end behind them. That no word goes on to the left is a fact about the lexeme before: if it
  ends in a word character, it is a word or a number, and a word may end behind it too.
-/
import QueryLint.Proofs.TokenTexts

namespace QueryLint.Token

open QueryLint.Text

/-- The classes of words. -/
def wordClasses : List LexClass :=
  [.keyword, .aggregate, .identifier]

/-- Between `before` and `after` the text is a run of letters, digits and underscores that does
    not begin with a digit, and no word character stands next to it on either side. -/
structure IsWholeWord (before text after : List Char) : Prop where
  start : ∃ c cs, text = c :: cs ∧ isIdentStart c = true
  ascii : ∀ c ∈ text, isAsciiWord c = true
  left : ∀ c ∈ before.getLast?, isWord c = false
  right : ∀ c ∈ after.head?, isWord c = false

/-- The class of a word is found by looking its upper case up in the two dictionaries. -/
structure Lexeme.IsLookedUp (l : Lexeme) : Prop where
  keyword : l.lexClass = .keyword ↔ String.ofList (upperAscii l.text) ∈ keywords
  aggregate : l.lexClass = .aggregate ↔ String.ofList (upperAscii l.text) ∈ aggregates
  identifier : l.lexClass = .identifier ↔
    String.ofList (upperAscii l.text) ∉ keywords ∧ String.ofList (upperAscii l.text) ∉ aggregates

/-! ## Spellings without foreign letters -/

theorem spellsLetter_iff {w c : Char} (hlong : c ≠ longS) (hkelvin : c ≠ kelvin) :
    spellsLetter w c = true ↔ c.toUpper = w := by
  simp [spellsLetter, hlong, hkelvin]

/-- Without foreign letters, a word is spelled by the texts whose upper case it is. -/
theorem spells_iff {word t : List Char} (hlong : longS ∉ t) (hkelvin : kelvin ∉ t) :
    List.Forall₂ (fun w c => spellsLetter w c = true) word t ↔ upperAscii t = word := by
  induction t generalizing word with
  | nil =>
    rw [List.forall₂_nil_right_iff]
    exact eq_comm
  | cons c t ih =>
    rw [List.mem_cons, not_or] at hlong hkelvin
    have hletter : ∀ w, spellsLetter w c = true ↔ c.toUpper = w :=
      fun w => spellsLetter_iff (Ne.symm hlong.1) (Ne.symm hkelvin.1)
    cases word with
    | nil => simp [upperAscii]
    | cons w word =>
      rw [List.forall₂_cons, hletter, ih hlong.2 hkelvin.2]
      simp [upperAscii]

/-- A spelling that is as long as its word spells the word letter by letter. -/
theorem spells_of_spellsWord {word t : List Char} (h : spellsWord word t = true)
    (hlength : t.length = word.length) :
    List.Forall₂ (fun w c => spellsLetter w c = true) word t := by
  have hstarts : startsWithWord word t = true := by
    rw [startsWithWord, h, ← hlength, List.drop_length]
    rfl
  obtain ⟨spelling, rest, rfl, hspells, -⟩ := startsWithWord_iff.1 hstarts
  have hrest : rest = [] := by
    have hsame := hspells.length_eq
    rw [List.length_append] at hlength
    exact List.eq_nil_of_length_eq_zero (by omega)
  rwa [hrest, List.append_nil]

/-- Where a word may end behind a text, a dictionary that holds the text in upper case has a
    word at its front. -/
theorem wordLength?_ne_none {dictionary : List (List Char)} {t r : List Char}
    (hlong : longS ∉ t) (hkelvin : kelvin ∉ t) (hr : atWordEnd r = true)
    (h : upperAscii t ∈ dictionary) : wordLength? dictionary (t ++ r) ≠ none := by
  have hspells := (spells_iff hlong hkelvin).2 rfl
  exact mt wordLength?_eq_none_iff.1
    (not_not_intro ⟨_, h, t, r, rfl, hspells, atWordEnd_iff.1 hr⟩)

/-! ## The shape of words -/

/-- The upper case of a dictionary word. -/
theorem upperAscii_mem_of_spelled {dictionary : List (List Char)} {t : List Char}
    (hlong : longS ∉ t) (hkelvin : kelvin ∉ t)
    (h : ∃ word ∈ dictionary, spellsWord word t = true ∧ t.length = word.length) :
    upperAscii t ∈ dictionary := by
  obtain ⟨word, hword, hspells, hlength⟩ := h
  rwa [(spells_iff hlong hkelvin).1 (spells_of_spellsWord hspells hlength)]

/-- Without foreign letters, the letters of a dictionary word may all begin an identifier. -/
theorem isIdentStart_of_spelled {dictionary : List (List Char)} (hd : Spelled dictionary)
    {t : List Char} (hlong : longS ∉ t) (hkelvin : kelvin ∉ t)
    (h : ∃ word ∈ dictionary, spellsWord word t = true ∧ t.length = word.length) :
    ∀ c ∈ t, isIdentStart c = true := by
  obtain ⟨word, hword, hspells, hlength⟩ := h
  intro c hc
  have htake : c ∈ t.take word.length := by rwa [← hlength, List.take_length]
  obtain ⟨w, hw, hletter⟩ := exists_letter_of_spellsWord hspells c htake
  exact isIdentStart_of_spellsLetter ((hd word hword).2 w hw) hletter
    (fun e => hlong (e ▸ hc)) fun e => hkelvin (e ▸ hc)

theorem LexClass.Shape.word {k : LexClass} {c : Char} {t : List Char} (h : k.Shape (c :: t))
    (hk : k ∈ wordClasses) (hlong : longS ∉ c :: t) (hkelvin : kelvin ∉ c :: t) :
    isIdentStart c = true ∧ ∀ d ∈ c :: t, isAsciiWord d = true := by
  have hspelled : (∀ d ∈ c :: t, isIdentStart d = true) →
      isIdentStart c = true ∧ ∀ d ∈ c :: t, isAsciiWord d = true := fun hall =>
    ⟨hall c List.mem_cons_self, fun d hd => isAsciiWord_of_isIdentStart (hall d hd)⟩
  simp only [wordClasses, List.mem_cons, List.not_mem_nil, or_false] at hk
  rcases hk with rfl | rfl | rfl
  · exact hspelled (isIdentStart_of_spelled spelled_keywordLetters hlong hkelvin h)
  · exact hspelled (isIdentStart_of_spelled spelled_aggregateLetters hlong hkelvin h)
  · obtain ⟨d, ds, heq, hd, hds⟩ := h
    cases heq
    exact ⟨hd, List.forall_mem_cons.2 ⟨isAsciiWord_of_isIdentStart hd, hds⟩⟩

/-- A lexeme that ends in a word character is a word or a number. -/
theorem LexClass.Shape.class_of_getLast? {k : LexClass} {t : List Char} {c : Char}
    (h : k.Shape t) (hlast : t.getLast? = some c) (hc : isWord c = true) :
    k ∈ wordClasses ∨ k = .number := by
  cases k with
  | keyword => exact .inl (by decide)
  | aggregate => exact .inl (by decide)
  | identifier => exact .inl (by decide)
  | number => exact .inr rfl
  | star =>
    rw [show t = ['*'] from h, List.getLast?_singleton] at hlast
    cases hlast
    exact absurd hc (by decide)
  | string =>
    obtain ⟨body, rfl, -⟩ := h
    rw [← List.cons_append, List.getLast?_concat] at hlast
    cases hlast
    exact absurd hc (by decide)
  | operator =>
    have hall : (operators.all fun op => op.getLast?.all fun x => !isWord x) = true := by decide
    have hnot := List.all_eq_true.1 hall t h
    simp [hlast, hc] at hnot
  | symbol =>
    have hall : (symbols.all fun x => !isWord x) = true := by decide
    obtain ⟨d, hd, rfl⟩ := h
    have hnot := List.all_eq_true.1 hall d hd
    rw [List.getLast?_singleton] at hlast
    cases hlast
    rw [hc] at hnot
    cases hnot
  | blank =>
    have hnot := holdsNoBlank_isWord c (h.2 c (List.mem_of_getLast? hlast))
    rw [hc] at hnot
    cases hnot

/-! ## The neighbours of a word -/

/-- Behind a word or a number a word may end. -/
theorem Lexeme.IsFirstMatch.atWordEnd_of_class {l : Lexeme} {ls : List Lexeme}
    (h : l.IsFirstMatch (textOf ls)) (hl : l.lexClass ∈ wordClasses ∨ l.lexClass = .number)
    (hls : Lexed ls []) (hlong : longS ∉ textOf ls) (hkelvin : kelvin ∉ textOf ls) :
    atWordEnd (textOf ls) = true := by
  have hmatch := firstMatch?_matchLength? (Lexeme.isFirstMatch_iff.1 h)
  simp only [wordClasses, List.mem_cons, List.not_mem_nil, or_false] at hl
  rcases hl with (hkeyword | haggregate | hidentifier) | hnumber
  · rw [hkeyword] at hmatch
    exact atWordEnd_of_wordLength? hmatch
  · rw [haggregate] at hmatch
    exact atWordEnd_of_wordLength? hmatch
  · exact h.atWordEnd_of_identifier hidentifier hls hlong hkelvin
  · rw [hnumber] at hmatch
    exact (numberLength?_alone hmatch).2

/-- A word is not part of a longer one. -/
theorem isWholeWord_of_lexed {before after : List Lexeme} {l : Lexeme}
    (h : Lexed (before ++ l :: after) []) (hl : l.lexClass ∈ wordClasses)
    (hlong : longS ∉ textOf (before ++ l :: after))
    (hkelvin : kelvin ∉ textOf (before ++ l :: after)) :
    IsWholeWord (textOf before) l.text (textOf after) := by
  obtain ⟨hbefore, hfirst, hafter⟩ := lexed_append_iff.1 h
  rw [List.append_nil] at hbefore hfirst
  simp only [textOf_append, textOf_cons, List.mem_append, not_or] at hlong hkelvin
  obtain ⟨c, cs, htext⟩ := List.exists_cons_of_ne_nil hfirst.nonempty
  have hword := LexClass.Shape.word (htext ▸ hfirst.shape) hl (htext ▸ hlong.2.1)
    (htext ▸ hkelvin.2.1)
  refine ⟨⟨c, cs, htext, hword.1⟩, htext ▸ hword.2, ?_, ?_⟩
  · intro d hd
    rcases List.eq_nil_or_concat' before with rfl | ⟨front, m, rfl⟩
    · cases hd
    · rw [lexed_concat_iff] at hbefore
      have hm := hbefore.2
      have hlast : m.text.getLast? = some d := by
        rw [textOf_append, textOf_cons, textOf_nil, List.append_nil,
          List.getLast?_append_of_ne_nil _ hm.nonempty] at hd
        exact hd
      rw [Bool.eq_false_iff]
      intro hisWord
      -- The lexeme before would be one behind which a word may end, and here one begins.
      have hend := hm.atWordEnd_of_class (hm.shape.class_of_getLast? hlast hisWord)
        ⟨by simpa using hfirst, hafter⟩ (by simp [hlong.2]) (by simp [hkelvin.2])
      rw [textOf_cons, htext, List.cons_append, atWordEnd,
        isWord_of_isAsciiWord (isAsciiWord_of_isIdentStart hword.1)] at hend
      cases hend
  · exact atWordEnd_iff.1 (hfirst.atWordEnd_of_class (.inl hl) hafter hlong.2.2 hkelvin.2.2)

/-! ## The class of a word -/

/-- No name of an aggregate function is reserved. -/
theorem not_mem_aggregateLetters {word : List Char} (h : word ∈ keywordLetters) :
    word ∉ aggregateLetters := by
  have hall : (keywordLetters.all fun word => !aggregateLetters.contains word) = true := by
    decide +kernel
  have hnot := List.all_eq_true.1 hall word h
  simpa using hnot

/-- Which of the three classes a word belongs to, its upper case tells. -/
theorem wordClass_iff {l : Lexeme} {r : List Char} (h : l.IsFirstMatch r)
    (hl : l.lexClass ∈ wordClasses) (hr : atWordEnd r = true) (hlong : longS ∉ l.text)
    (hkelvin : kelvin ∉ l.text) :
    (l.lexClass = .keyword ↔ upperAscii l.text ∈ keywordLetters) ∧
      (l.lexClass = .aggregate ↔ upperAscii l.text ∈ aggregateLetters) := by
  have hshape := h.shape
  have hearlier := (firstMatch?_eq_some_iff.1 (Lexeme.isFirstMatch_iff.1 h)).2
  -- A dictionary that is tried before the lexeme's class does not hold the word.
  have hkeywords : .keyword ∈ LexClass.all.takeWhile (· ≠ l.lexClass) →
      upperAscii l.text ∉ keywordLetters :=
    fun hk hmem => wordLength?_ne_none hlong hkelvin hr hmem (hearlier .keyword hk)
  have haggregates : .aggregate ∈ LexClass.all.takeWhile (· ≠ l.lexClass) →
      upperAscii l.text ∉ aggregateLetters :=
    fun hk hmem => wordLength?_ne_none hlong hkelvin hr hmem (hearlier .aggregate hk)
  simp only [wordClasses, List.mem_cons, List.not_mem_nil, or_false] at hl
  rcases hl with hclass | hclass | hclass <;> rw [hclass] at hshape hkeywords haggregates ⊢
  · have hmem := upperAscii_mem_of_spelled hlong hkelvin hshape
    exact ⟨iff_of_true rfl hmem, iff_of_false (by decide) (not_mem_aggregateLetters hmem)⟩
  · have hmem := upperAscii_mem_of_spelled hlong hkelvin hshape
    exact ⟨iff_of_false (by decide) (hkeywords (by decide)), iff_of_true rfl hmem⟩
  · exact ⟨iff_of_false (by decide) (hkeywords (by decide)),
      iff_of_false (by decide) (haggregates (by decide))⟩

theorem ofList_mem_iff {words : List String} {t : List Char} :
    String.ofList t ∈ words ↔ t ∈ words.map String.toList := by
  rw [List.mem_map]
  constructor
  · intro h
    exact ⟨_, h, String.toList_ofList⟩
  · rintro ⟨word, hword, rfl⟩
    rwa [String.ofList_toList]

theorem isLookedUp_of_lexed {before after : List Lexeme} {l : Lexeme}
    (h : Lexed (before ++ l :: after) []) (hl : l.lexClass ∈ wordClasses)
    (hlong : longS ∉ textOf (before ++ l :: after))
    (hkelvin : kelvin ∉ textOf (before ++ l :: after)) : l.IsLookedUp := by
  have hend := atWordEnd_iff.2 (isWholeWord_of_lexed h hl hlong hkelvin).right
  obtain ⟨-, hfirst, -⟩ := lexed_append_iff.1 h
  rw [List.append_nil] at hfirst
  simp only [textOf_append, textOf_cons, List.mem_append, not_or] at hlong hkelvin
  obtain ⟨hkeyword, haggregate⟩ := wordClass_iff hfirst hl hend hlong.2.1 hkelvin.2.1
  refine ⟨hkeyword.trans ofList_mem_iff.symm, haggregate.trans ofList_mem_iff.symm, ?_⟩
  rw [ofList_mem_iff, ofList_mem_iff, ← keywordLetters, ← aggregateLetters, ← hkeyword,
    ← haggregate]
  revert hl
  cases l.lexClass <;> decide

/-! ## Tokens -/

/-- Every token is that of a lexeme. -/
theorem exists_lexeme_of_mem_tokensOf {ls : List Lexeme} {t : Token} (h : t ∈ tokensOf ls) :
    ∃ l ∈ ls, l.lexClass.kind? = some t.kind ∧ l.tokenText = t.text := by
  have hface : face t ∈ (tokensOf ls).map face := List.mem_map_of_mem h
  rw [map_face_tokensOf, List.mem_filterMap] at hface
  obtain ⟨l, hl, hface⟩ := hface
  obtain ⟨kind, hkind, heq⟩ := Option.map_eq_some_iff.1 hface
  obtain ⟨rfl, htext⟩ := Prod.mk.inj heq
  exact ⟨l, hl, hkind, htext⟩

theorem tokenText_of_word {l : Lexeme} (hl : l.lexClass ≠ .string) (hlong : longS ∉ l.text) :
    l.tokenText = String.ofList (upperAscii l.text) := by
  rw [Lexeme.tokenText, if_neg hl, upperAscii]
  refine congrArg String.ofList (List.map_congr_left fun c hc => ?_)
  exact if_neg (by simpa using fun e : c = longS => hlong (e ▸ hc))

/-- Words are classified by looking up the whole word. In a text that has tokens and holds
    neither a long s nor a Kelvin sign, keywords, aggregates and identifiers are words that are
    not part of longer ones. A word is a keyword if its upper case is reserved, an aggregate if
    its upper case names an aggregate function, and an identifier otherwise. So no identifier
    has the text of a keyword. -/
theorem words_looked_up_whole {sql : String} {ts : List Token} (h : tokenize sql = .ok ts)
    (hlong : longS ∉ sql.toList) (hkelvin : kelvin ∉ sql.toList) :
    ∃ ls, sql.toList = textOf ls ∧ Lexed ls [] ∧ ts = tokensOf ls ∧
      (∀ before l after, ls = before ++ l :: after → l.lexClass ∈ wordClasses →
        IsWholeWord (textOf before) l.text (textOf after) ∧ l.IsLookedUp) ∧
      ∀ t ∈ ts, t.kind = .identifier → t.text ∉ keywords := by
  obtain ⟨ls, htext, hlexed, -, hts⟩ :=
    (cut_and_iff (P := fun ls => ts = tokensOf ls)).1 (tokenize_eq_ok_iff.1 h)
  rw [List.append_nil] at htext
  rw [htext] at hlong hkelvin
  refine ⟨ls, htext, hlexed, hts, ?_, ?_⟩
  · rintro before l after rfl hl
    exact ⟨isWholeWord_of_lexed hlexed hl hlong hkelvin,
      isLookedUp_of_lexed hlexed hl hlong hkelvin⟩
  · intro t ht hkind
    rw [hts] at ht
    obtain ⟨l, hl, hclass, htokenText⟩ := exists_lexeme_of_mem_tokensOf ht
    have hidentifier : l.lexClass = .identifier := by
      rw [hkind] at hclass
      revert hclass
      cases l.lexClass <;> decide
    obtain ⟨before, after, rfl⟩ := List.append_of_mem hl
    have hlookedUp := isLookedUp_of_lexed hlexed (hidentifier ▸ by decide) hlong hkelvin
    simp only [textOf_append, textOf_cons, List.mem_append, not_or] at hlong
    rw [← htokenText, tokenText_of_word (by rw [hidentifier]; decide) hlong.2.1]
    exact (hlookedUp.identifier.1 hidentifier).1

/-- Words of both dictionaries at the front of longer words, and words next to numbers and
    points. -/
theorem words_looked_up_whole_longer :
    let sql := "Select selects,_in.min2 ,Sum(x)in(1,y)"
    ∃ ls, sql.toList = textOf ls ∧ Lexed ls [] ∧
      ∀ before l after, ls = before ++ l :: after → l.lexClass ∈ wordClasses →
        IsWholeWord (textOf before) l.text (textOf after) ∧ l.IsLookedUp := by
  intro sql
  have htokens : tokenize sql = .ok [⟨.keyword, "SELECT", 1⟩, ⟨.identifier, "SELECTS", 1⟩,
      ⟨.symbol, ",", 1⟩, ⟨.identifier, "_IN", 1⟩, ⟨.symbol, ".", 1⟩, ⟨.identifier, "MIN2", 1⟩,
      ⟨.symbol, ",", 1⟩, ⟨.aggregate, "SUM", 1⟩, ⟨.symbol, "(", 1⟩, ⟨.identifier, "X", 1⟩,
      ⟨.symbol, ")", 1⟩, ⟨.keyword, "IN", 1⟩, ⟨.symbol, "(", 1⟩, ⟨.number, "1", 1⟩,
      ⟨.symbol, ",", 1⟩, ⟨.identifier, "Y", 1⟩, ⟨.symbol, ")", 1⟩] := by decide +kernel
  obtain ⟨ls, htext, hlexed, -, hwords, -⟩ :=
    words_looked_up_whole htokens (by decide) (by decide)
  exact ⟨ls, htext, hlexed, hwords⟩

end QueryLint.Token

/-
  QueryLint.Proofs.TokenTexts

  A token's text says what the token is. Written out with single blanks between them, the texts
  of a query's tokens are read as tokens of the same classes and texts.

  A lexeme that is not blank is also the first match of its text alone
  (`Lexeme.IsFirstMatch.alone`). Word classes look at what follows only to see whether a word may
  end there, and behind a lexeme of theirs one may. For an identifier this is so because some
  lexeme follows: the only characters beyond ASCII that both continue a word and begin a lexeme
  are the long s and the Kelvin sign.
-/
import QueryLint.Proofs.Layout
import QueryLint.Proofs.LetterCase

namespace QueryLint.Token

open QueryLint.Text

/-! ## What begins a lexeme -/

/-- The long s and the Kelvin sign apart, only ASCII characters spell letters. -/
theorem isIdentStart_of_spellsLetter {w c : Char} (hw : isWordLetter w = true)
    (h : spellsLetter w c = true) (hlong : c ≠ longS) (hkelvin : c ≠ kelvin) :
    isIdentStart c = true := by
  simp only [spellsLetter, Bool.or_eq_true, Bool.and_eq_true, beq_iff_eq] at h
  rcases h with (rfl | ⟨-, h⟩) | ⟨-, h⟩
  · rw [← apply_toUpper isIdentStart (by decide) c]
    simp only [isWordLetter, Bool.or_eq_true, beq_iff_eq] at hw
    show (c.toUpper.isUpper || c.toUpper.isLower || c.toUpper == '_') = true
    rcases hw with hw | hw <;> simp [hw]
  · exact absurd h hlong
  · exact absurd h hkelvin

theorem isAsciiWord_of_isIdentStart {c : Char} (h : isIdentStart c = true) :
    isAsciiWord c = true := by
  rw [isIdentStart, Bool.or_eq_true] at h
  show (c.isAlpha || c.isDigit || c == '_') = true
  rcases h with h | h <;> simp [h]

theorem isAsciiWord_of_isDigit {c : Char} (h : c.isDigit = true) : isAsciiWord c = true := by
  show (c.isAlpha || c.isDigit || c == '_') = true
  simp [h]

/-- The first character of a whole dictionary word. -/
theorem isIdentStart_of_spellsWord {dictionary : List (List Char)} (hd : Spelled dictionary)
    {word : List Char} (hword : word ∈ dictionary) {c : Char} {cs : List Char}
    (h : spellsWord word (c :: cs) = true) (hlong : c ≠ longS) (hkelvin : c ≠ kelvin) :
    isIdentStart c = true := by
  obtain ⟨hne, hletters⟩ := hd word hword
  cases word with
  | nil => exact absurd rfl hne
  | cons w word =>
    rw [spellsWord, Bool.and_eq_true] at h
    exact isIdentStart_of_spellsLetter (hletters w List.mem_cons_self) h.1 hlong hkelvin

/-- The long s and the Kelvin sign apart, a word character that begins a lexeme is of ASCII. -/
theorem LexClass.Shape.isAsciiWord_head {k : LexClass} {c : Char} {cs : List Char}
    (h : k.Shape (c :: cs)) (hc : isWord c = true) (hlong : c ≠ longS) (hkelvin : c ≠ kelvin) :
    isAsciiWord c = true := by
  -- A character that is no word character begins no such lexeme.
  have hne : ∀ x : Char, isWord x = false → c ≠ x := by
    rintro x hx rfl
    rw [hc] at hx
    cases hx
  cases k with
  | keyword =>
    obtain ⟨word, hword, hspells, -⟩ := h
    exact isAsciiWord_of_isIdentStart
      (isIdentStart_of_spellsWord spelled_keywordLetters hword hspells hlong hkelvin)
  | aggregate =>
    obtain ⟨word, hword, hspells, -⟩ := h
    exact isAsciiWord_of_isIdentStart
      (isIdentStart_of_spellsWord spelled_aggregateLetters hword hspells hlong hkelvin)
  | star =>
    injection (h : c :: cs = ['*']) with hhead _
    exact absurd hhead (hne '*' (by decide))
  | identifier =>
    obtain ⟨d, ds, heq, hd, -⟩ := h
    injection heq with hhead _
    exact isAsciiWord_of_isIdentStart (hhead ▸ hd)
  | number =>
    rcases h.2 c List.mem_cons_self with hdigit | hpoint
    · exact isAsciiWord_of_isDigit hdigit
    · exact absurd hpoint (hne '.' (by decide))
  | string =>
    obtain ⟨body, heq, -⟩ := h
    injection heq with hhead _
    exact absurd hhead (hne '\'' (by decide))
  | operator =>
    have hall : (operators.all fun op => op.head?.all fun x => !isWord x) = true := by decide
    have hhead := List.all_eq_true.1 hall _ h
    simp [hc] at hhead
  | symbol =>
    have hall : (symbols.all fun x => !isWord x) = true := by decide
    obtain ⟨d, hd, heq⟩ := h
    injection heq with hhead _
    have hnot := List.all_eq_true.1 hall d hd
    rw [← hhead, hc] at hnot
    cases hnot
  | blank =>
    have hnot := holdsNoBlank_isWord c (h.2 c List.mem_cons_self)
    rw [hc] at hnot
    cases hnot

/-! ## Looking at what follows -/

theorem atWordEnd_iff {cs : List Char} :
    atWordEnd cs = true ↔ ∀ c ∈ cs.head?, isWord c = false := by
  cases cs with
  | nil => simp [atWordEnd]
  | cons c cs => simp [atWordEnd]

theorem startsWithWord_cons (w : Char) (word : List Char) (c : Char) (cs : List Char) :
    startsWithWord (w :: word) (c :: cs) = (spellsLetter w c && startsWithWord word cs) :=
  Bool.and_assoc _ _ _

/-- A text that begins with a dictionary word, cut behind the word. -/
theorem startsWithWord_iff {word cs : List Char} :
    startsWithWord word cs = true ↔
      ∃ spelling rest, cs = spelling ++ rest ∧
        List.Forall₂ (fun w c => spellsLetter w c = true) word spelling ∧
        atWordEnd rest = true := by
  induction word generalizing cs with
  | nil =>
    simp only [List.forall₂_nil_left_iff]
    constructor
    · intro h
      exact ⟨[], cs, rfl, rfl, h⟩
    · rintro ⟨spelling, rest, rfl, rfl, hend⟩
      exact hend
  | cons w word ih =>
    simp only [List.forall₂_cons_left_iff]
    constructor
    · intro h
      cases cs with
      | nil => cases h
      | cons c cs =>
        rw [startsWithWord_cons, Bool.and_eq_true] at h
        obtain ⟨spelling, rest, rfl, hspells, hend⟩ := ih.1 h.2
        exact ⟨c :: spelling, rest, rfl, ⟨c, spelling, h.1, hspells, rfl⟩, hend⟩
    · rintro ⟨_, rest, rfl, ⟨c, spelling, hc, hspells, rfl⟩, hend⟩
      rw [List.cons_append, startsWithWord_cons, hc, Bool.true_and]
      exact ih.2 ⟨spelling, rest, rfl, hspells, hend⟩

/-- A whole word of the dictionary, in some spelling, stands at the front of the text. -/
def BeginsWithWord (dictionary : List (List Char)) (cs : List Char) : Prop :=
  ∃ word ∈ dictionary, ∃ spelling rest, cs = spelling ++ rest ∧
    List.Forall₂ (fun w c => spellsLetter w c = true) word spelling ∧
    ∀ c ∈ rest.head?, isWord c = false

theorem wordLength?_eq_none_iff {dictionary : List (List Char)} {cs : List Char} :
    wordLength? dictionary cs = none ↔ ¬ BeginsWithWord dictionary cs := by
  rw [wordLength?, Option.map_eq_none_iff, List.find?_eq_none]
  simp only [startsWithWord_iff, atWordEnd_iff, BeginsWithWord, not_exists, not_and]

/-- Where a word may end, whether a text begins with a dictionary word is seen without looking
    further. -/
theorem startsWithWord_append {word : List Char} (hletters : ∀ w ∈ word, isWordLetter w = true)
    {r : List Char} (hr : atWordEnd r = true) (t : List Char) :
    startsWithWord word (t ++ r) = startsWithWord word t := by
  induction word generalizing t with
  | nil =>
    cases t with
    | nil => exact hr
    | cons c t => rfl
  | cons w word ih =>
    rw [List.forall_mem_cons] at hletters
    cases t with
    | nil =>
      -- The word would go on with a letter where a word ends.
      rw [List.nil_append, Bool.eq_iff_iff]
      refine ⟨fun h => ?_, fun h => nomatch h⟩
      cases r with
      | nil => cases h
      | cons c r =>
        simp only [startsWithWord, spellsWord, Bool.and_eq_true] at h
        simp [atWordEnd, isWord_of_spellsLetter hletters.1 h.1.1] at hr
    | cons c t =>
      rw [List.cons_append, startsWithWord_cons, startsWithWord_cons, ih hletters.2 t]

theorem wordLength?_append {dictionary : List (List Char)} (hd : Spelled dictionary)
    {r : List Char} (hr : atWordEnd r = true) (t : List Char) :
    wordLength? dictionary (t ++ r) = wordLength? dictionary t := by
  have hfilter : dictionary.filter (startsWithWord · (t ++ r)) =
      dictionary.filter (startsWithWord · t) :=
    List.filter_congr fun word hword => startsWithWord_append (hd word hword).2 hr t
  rw [wordLength?, wordLength?, ← List.head?_filter, ← List.head?_filter, hfilter]

theorem spanLength_append {p : Char → Bool} {r : List Char} (hr : r.head?.any p = false)
    (t : List Char) : spanLength p (t ++ r) = spanLength p t := by
  induction t with
  | nil =>
    cases r with
    | nil => rfl
    | cons c r => exact spanLength_cons_of_neg (by simpa using hr) r
  | cons c t ih =>
    by_cases hc : p c = true
    · rw [List.cons_append, spanLength_cons_of_pos hc, spanLength_cons_of_pos hc, ih]
    · rw [List.cons_append, spanLength_cons_of_neg hc, spanLength_cons_of_neg hc]

theorem identLength?_append {r : List Char} (hr : atWordEnd r = true) (t : List Char) :
    identLength? (t ++ r) = identLength? t := by
  -- What may not go on a word is neither the start nor a later character of an identifier.
  have hnot : ∀ p : Char → Bool, (∀ c, p c = true → isAsciiWord c = true) →
      r.head?.any p = false := by
    intro p hp
    cases r with
    | nil => rfl
    | cons c r =>
      rw [List.head?_cons, Option.any_some, Bool.eq_false_iff]
      intro hc
      simp [atWordEnd, isWord_of_isAsciiWord (hp c hc)] at hr
  cases t with
  | nil =>
    have hstart := hnot isIdentStart fun _ => isAsciiWord_of_isIdentStart
    cases r with
    | nil => rfl
    | cons c r =>
      rw [List.head?_cons, Option.any_some] at hstart
      simp [identLength?, hstart]
  | cons c t =>
    rw [List.cons_append, identLength?, identLength?,
      spanLength_append (hnot isAsciiWord fun _ => id)]

/-- Behind a whole dictionary word a word may end. -/
theorem atWordEnd_of_wordLength? {dictionary : List (List Char)} {t r : List Char}
    (h : wordLength? dictionary (t ++ r) = some t.length) : atWordEnd r = true := by
  obtain ⟨word, hfind, hlength⟩ := Option.map_eq_some_iff.1 h
  have hstarts := List.find?_some hfind
  rw [startsWithWord, Bool.and_eq_true, hlength, List.drop_left] at hstarts
  exact hstarts.2

/-- A run within the front of a text is a run of the front. -/
theorem spanLength_of_le {p : Char → Bool} {t r : List Char}
    (h : spanLength p (t ++ r) ≤ t.length) : spanLength p t = spanLength p (t ++ r) := by
  rw [spanLength, spanLength, List.takeWhile_append] at *
  split at h
  · rename_i hall
    rw [if_pos hall, hall]
    rw [List.length_append] at h ⊢
    omega
  · rename_i hnot
    rw [if_neg hnot]

/-- A whole fraction is also one by itself, and a word may end behind it. -/
theorem fractionLength?_alone {t r : List Char} (h : fractionLength? (t ++ r) = some t.length) :
    fractionLength? t = some t.length ∧ atWordEnd r = true := by
  cases t with
  | nil =>
    -- A fraction has at least its point.
    cases r with
    | nil => cases h
    | cons c r =>
      rw [List.nil_append, fractionLength?_cons] at h
      split at h <;> cases h
  | cons c t =>
    rw [List.cons_append, fractionLength?_cons] at h
    split at h
    · rename_i hfraction
      obtain ⟨rfl, hne, hend⟩ := hfraction
      have hspan : spanLength Char.isDigit (t ++ r) = t.length :=
        Nat.succ.inj (Option.some.inj h)
      have halone := (spanLength_of_le (Nat.le_of_eq hspan)).trans hspan
      rw [hspan] at hne hend
      rw [List.drop_left] at hend
      refine ⟨?_, hend⟩
      rw [fractionLength?_cons, halone, List.drop_length, if_pos ⟨rfl, hne, rfl⟩]
      rfl
    · cases h

/-- A whole number is also one by itself, and a word may end behind it. -/
theorem numberLength?_alone {t r : List Char} (h : numberLength? (t ++ r) = some t.length) :
    numberLength? t = some t.length ∧ atWordEnd r = true := by
  simp only [numberLength?] at h ⊢
  split at h
  · cases h
  · rename_i hne
    have hle : spanLength Char.isDigit (t ++ r) ≤ t.length := by
      split at h
      · have := Option.some.inj h
        omega
      · split at h
        · have := Option.some.inj h
          omega
        · cases h
    have hspan := spanLength_of_le hle
    rw [if_neg (hspan ▸ hne), hspan]
    rw [List.drop_append_of_le_length hle] at h
    split at h
    · rename_i m hm
      -- The fraction takes all that the digits leave of the text.
      have hm' : m = (t.drop (spanLength Char.isDigit (t ++ r))).length := by
        have := Option.some.inj h
        rw [List.length_drop]
        omega
      rw [hm'] at hm
      obtain ⟨halone, hend⟩ := fractionLength?_alone hm
      rw [halone]
      refine ⟨congrArg some ?_, hend⟩
      rw [List.length_drop]
      omega
    · split at h
      · rename_i hend
        have hall := Option.some.inj h
        rw [hall, List.drop_length] at hend ⊢
        exact ⟨rfl, hend⟩
      · cases h

/-- Dictionary words and identifiers, and no others, see whether a word may end behind them. -/
theorem LexClass.matchLength?_append {k : LexClass}
    (hk : k ∈ [.keyword, .aggregate, .star, .identifier]) {t r : List Char} (ht : t ≠ [])
    (hr : atWordEnd r = true) : k.matchLength? (t ++ r) = k.matchLength? t := by
  simp only [List.mem_cons, List.not_mem_nil, or_false] at hk
  rcases hk with rfl | rfl | rfl | rfl
  · exact wordLength?_append spelled_keywordLetters hr t
  · exact wordLength?_append spelled_aggregateLetters hr t
  · obtain ⟨c, t, rfl⟩ := List.exists_cons_of_ne_nil ht
    rfl
  · exact identLength?_append hr t

/-! ## Lexemes by themselves -/

/-- Two operators are never found, since one they begin with is tried before them. -/
theorem ne_of_operatorLength? {t r : List Char} (h : operatorLength? (t ++ r) = some t.length) :
    t ≠ ['<', '='] ∧ t ≠ ['>', '='] := by
  constructor
  · rintro rfl
    simp [operatorLength?, operators] at h
  · rintro rfl
    simp [operatorLength?, operators] at h

theorem LexClass.matchLength?_nil (k : LexClass) : k.matchLength? [] = none := by
  cases h : k.matchLength? [] with
  | none => rfl
  | some n =>
    have ⟨hpos, hle⟩ := LexClass.matchLength?_bounds h
    exact absurd (Nat.lt_of_lt_of_le hpos hle) (Nat.lt_irrefl 0)

/-- Where a word may end, none begins. -/
theorem LexClass.matchLength?_of_atWordEnd {k : LexClass}
    (hk : k ∈ [.keyword, .aggregate, .identifier, .number]) {cs : List Char}
    (h : atWordEnd cs = true) : k.matchLength? cs = none := by
  simp only [List.mem_cons, List.not_mem_nil, or_false] at hk
  rcases hk with rfl | rfl | rfl | rfl
  · exact (wordLength?_append spelled_keywordLetters h []).trans (matchLength?_nil .keyword)
  · exact (wordLength?_append spelled_aggregateLetters h []).trans (matchLength?_nil .aggregate)
  · exact identLength?_append h []
  · cases cs with
    | nil => rfl
    | cons c cs =>
      have hdigit : ¬ c.isDigit = true := fun hc => by simp [atWordEnd, isWord_of_isDigit hc] at h
      simp only [LexClass.matchLength?, numberLength?, spanLength_cons_of_neg hdigit, if_true]

/-- Whether a character begins neither a word nor a number nor a literal and is no star. -/
def isSign (c : Char) : Bool :=
  !isWord c && c != '\'' && c != '*'

/-- Before a sign no class matches that is tried before operators. -/
theorem LexClass.matchLength?_sign {k : LexClass}
    (hk : k ∈ LexClass.all.takeWhile (· ≠ .operator)) {c : Char} (hc : isSign c = true)
    (cs : List Char) : k.matchLength? (c :: cs) = none := by
  simp only [isSign, Bool.and_eq_true, bne_iff_ne] at hc
  obtain ⟨⟨hword, hquote⟩, hstar⟩ := hc
  have hwords : k ∈ [.keyword, .aggregate, .identifier, .number] →
      k.matchLength? (c :: cs) = none := fun hk => matchLength?_of_atWordEnd hk hword
  cases k with
  | keyword => exact hwords (by decide)
  | aggregate => exact hwords (by decide)
  | star => simp [LexClass.matchLength?, oneLength?, hstar]
  | identifier => exact hwords (by decide)
  | number => exact hwords (by decide)
  | string => simp [LexClass.matchLength?, stringLength?, hquote]
  | operator => exact absurd hk (by decide)
  | symbol => exact absurd hk (by decide)
  | blank => exact absurd hk (by decide)

/-- Before a quote no class matches that is tried before string literals. -/
theorem LexClass.matchLength?_quote {k : LexClass}
    (hk : k ∈ LexClass.all.takeWhile (· ≠ .string)) (cs : List Char) :
    k.matchLength? ('\'' :: cs) = none := by
  have hend : atWordEnd ('\'' :: cs) = true := by
    show (!isWord '\'') = true
    decide
  by_cases hstar : k = .star
  · subst hstar
    rfl
  · exact matchLength?_of_atWordEnd (by revert hk hstar; cases k <;> decide) hend

theorem firstMatch?_star : firstMatch? ['*'] = some (.star, 1) := by
  refine firstMatch?_eq_some_iff.2 ⟨rfl, fun j hj => ?_⟩
  refine LexClass.matchLength?_of_atWordEnd ?_ (by decide)
  revert hj
  cases j <;> decide

theorem firstMatch?_string {t : List Char} (h : LexClass.string.Shape t) :
    firstMatch? t = some (.string, t.length) := by
  have hself := matched?_string h []
  rw [List.append_nil, LexClass.matched?_pattern] at hself
  obtain ⟨body, rfl, -⟩ := h
  refine firstMatch?_eq_some_iff.2 ⟨?_, fun j hj => LexClass.matchLength?_quote hj _⟩
  obtain ⟨n, hn, htake⟩ := Option.map_eq_some_iff.1 hself
  have hle := (LexClass.matchLength?_bounds hn).2
  have hlength := congrArg List.length htake
  rw [List.length_take, Nat.min_eq_left hle] at hlength
  rw [hn, hlength]

/-- Every operator is found by itself, but for two that are never found and the star, which is a
    class of its own. -/
theorem firstMatch?_operator {t : List Char} (ht : t ∈ operators) (hstar : t ≠ ['*'])
    (hless : t ≠ ['<', '=']) (hgreater : t ≠ ['>', '=']) :
    firstMatch? t = some (.operator, t.length) := by
  have hall : (operators.all fun op => decide (op = ['*'] ∨ op = ['<', '='] ∨ op = ['>', '='] ∨
      (operatorLength? op = some op.length ∧ op.head?.any isSign = true))) = true := by decide
  obtain ⟨hself, hsign⟩ := (((of_decide_eq_true (List.all_eq_true.1 hall t ht)).resolve_left
    hstar).resolve_left hless).resolve_left hgreater
  cases t with
  | nil => cases hsign
  | cons c cs =>
    exact firstMatch?_eq_some_iff.2 ⟨hself, fun j hj => LexClass.matchLength?_sign hj hsign cs⟩

theorem firstMatch?_symbol {c : Char} (hc : c ∈ symbols) : firstMatch? [c] = some (.symbol, 1) := by
  have hall : (symbols.all fun c => isSign c && (operatorLength? [c]).isNone) = true := by decide
  obtain ⟨hsign, hoperator⟩ := Bool.and_eq_true_iff.1 (List.all_eq_true.1 hall c hc)
  refine firstMatch?_eq_some_iff.2 ⟨if_pos (by simpa using hc), fun j hj => ?_⟩
  by_cases hj' : j = .operator
  · subst hj'
    exact Option.isNone_iff_eq_none.1 hoperator
  · exact LexClass.matchLength?_sign (by revert hj hj'; cases j <;> decide) hsign []

/-- A lexeme that is not blank is the first match of its text alone, provided that a word may
    end behind it if it is an identifier. -/
theorem Lexeme.IsFirstMatch.alone {l : Lexeme} {r : List Char} (h : l.IsFirstMatch r)
    (hl : l.lexClass ≠ .blank) (hend : l.lexClass = .identifier → atWordEnd r = true) :
    l.IsFirstMatch [] := by
  have hshape := h.shape
  have hne := h.nonempty
  rw [Lexeme.isFirstMatch_iff, firstMatch?_eq_some_iff] at h
  rw [Lexeme.isFirstMatch_iff, List.append_nil]
  obtain ⟨k, t⟩ := l
  obtain ⟨hmatch, hearlier⟩ := h
  simp only at hmatch hearlier hend hl hshape hne ⊢
  -- Where a word may end behind the lexeme, the classes up to identifiers match as before.
  have hwords : atWordEnd r = true → k.matchLength? t = some t.length →
      LexClass.all.takeWhile (· ≠ k) ⊆ [.keyword, .aggregate, .star, .identifier] →
      firstMatch? t = some (k, t.length) := by
    intro hr hself hsub
    refine firstMatch?_eq_some_iff.2 ⟨hself, fun j hj => ?_⟩
    rw [← LexClass.matchLength?_append (hsub hj) hne hr]
    exact hearlier j hj
  cases k with
  | keyword =>
    have hr := atWordEnd_of_wordLength? hmatch
    refine hwords hr ?_ (by decide)
    rwa [LexClass.matchLength?_append (by decide) hne hr] at hmatch
  | aggregate =>
    have hr := atWordEnd_of_wordLength? hmatch
    refine hwords hr ?_ (by decide)
    rwa [LexClass.matchLength?_append (by decide) hne hr] at hmatch
  | star =>
    rw [show t = ['*'] from hshape]
    exact firstMatch?_star
  | identifier =>
    have hr := hend rfl
    refine hwords hr ?_ (by decide)
    rwa [LexClass.matchLength?_append (by decide) hne hr] at hmatch
  | number =>
    obtain ⟨hself, hr⟩ := numberLength?_alone hmatch
    exact hwords hr hself (by decide)
  | string => exact firstMatch?_string hshape
  | operator =>
    obtain ⟨hless, hgreater⟩ := ne_of_operatorLength? hmatch
    refine firstMatch?_operator hshape ?_ hless hgreater
    rintro rfl
    exact absurd (hearlier .star (by decide)) (by simp [LexClass.matchLength?, oneLength?])
  | symbol =>
    obtain ⟨c, hc, rfl⟩ := hshape
    exact firstMatch?_symbol hc
  | blank => exact absurd rfl hl

/-- Behind an identifier a word may end, if lexemes follow to the end of the text and the two
    foreign spellings of letters do not occur. -/
theorem Lexeme.IsFirstMatch.atWordEnd_of_identifier {l : Lexeme} {ls : List Lexeme}
    (h : l.IsFirstMatch (textOf ls)) (hl : l.lexClass = .identifier) (hls : Lexed ls [])
    (hlong : longS ∉ textOf ls) (hkelvin : kelvin ∉ textOf ls) : atWordEnd (textOf ls) = true := by
  cases ls with
  | nil => rfl
  | cons m ls =>
    have hshape := hls.1.shape
    obtain ⟨c, cs, hm⟩ := List.exists_cons_of_ne_nil hls.1.nonempty
    rw [hm] at hshape
    rw [textOf_cons, hm, List.cons_append] at h hlong hkelvin ⊢
    show (!isWord c) = true
    rw [Bool.not_eq_true', Bool.eq_false_iff]
    intro hc
    -- The character is of ASCII, so the identifier would have taken it.
    have hascii := hshape.isAsciiWord_head hc (fun e => hlong (e ▸ List.mem_cons_self))
      fun e => hkelvin (e ▸ List.mem_cons_self)
    obtain ⟨hmatch, -⟩ := firstMatch?_eq_some_iff.1 (Lexeme.isFirstMatch_iff.1 h)
    obtain ⟨d, ds, hd⟩ := List.exists_cons_of_ne_nil h.nonempty
    rw [hl, hd, LexClass.matchLength?, List.cons_append, identLength?] at hmatch
    split at hmatch
    · have hspan : spanLength isAsciiWord (ds ++ c :: (cs ++ textOf ls)) = ds.length :=
        Nat.succ.inj (Option.some.inj hmatch)
      have halone := (spanLength_of_le (Nat.le_of_eq hspan)).trans hspan
      rw [spanLength] at halone
      rw [spanLength, List.takeWhile_append, if_pos halone, List.takeWhile_cons_of_pos hascii,
        List.length_append, List.length_cons] at hspan
      omega
    · cases hmatch

/-! ## Texts of tokens -/

/-- A lexeme that is spelled as its token. -/
def Lexeme.spelled (l : Lexeme) : Lexeme :=
  ⟨l.lexClass, l.tokenText.toList⟩

theorem upper_upper (c : Char) : upper (upper c) = upper c := by
  by_cases hc : c = longS
  · subst hc
    decide
  · have hupper : upper c = c.toUpper := if_neg (by simpa using hc)
    rw [hupper, upper_toUpper, hupper]

@[simp] theorem Lexeme.tokenText_spelled (l : Lexeme) : l.spelled.tokenText = l.tokenText := by
  have hidem : upper ∘ upper = upper := funext upper_upper
  by_cases hl : l.lexClass = .string
  · simp [Lexeme.spelled, Lexeme.tokenText, hl]
  · simp [Lexeme.spelled, Lexeme.tokenText, hl, hidem]

theorem Lexeme.face?_spelled (l : Lexeme) : l.spelled.face? = l.face? := by
  rw [Lexeme.face?, Lexeme.tokenText_spelled, Lexeme.face?]
  rfl

/-- A lexeme without a long s is spelled as its token in upper case, or is a string literal. -/
theorem Lexeme.spelled_eq {l : Lexeme} (hlong : longS ∉ l.text) :
    l.spelled = if l.lexClass = .string then l else l.raised := by
  have hmap : l.text.map upper = upperAscii l.text := by
    refine List.map_congr_left fun c hc => if_neg ?_
    rw [beq_iff_eq]
    rintro rfl
    exact hlong hc
  rw [Lexeme.spelled, Lexeme.tokenText, String.toList_ofList]
  split
  · rfl
  · rw [hmap]
    rfl

/-- Upper case keeps a first match. -/
theorem Lexeme.IsFirstMatch.spelled {l : Lexeme} (h : l.IsFirstMatch [])
    (hlong : longS ∉ l.text) : l.spelled.IsFirstMatch [] := by
  rw [Lexeme.spelled_eq hlong]
  split
  · exact h
  · rw [Lexeme.isFirstMatch_iff, List.append_nil] at h ⊢
    rw [Lexeme.raised, firstMatch?_upper, h, upperAscii, List.length_map]

/-- Every lexeme of a text that is not blank is, spelled as its token, the first match of its
    own text. -/
theorem spelled_alone {ls : List Lexeme} (h : Lexed ls []) (hlong : longS ∉ textOf ls)
    (hkelvin : kelvin ∉ textOf ls) :
    ∀ l ∈ ls, l.lexClass ≠ .blank → l.spelled.IsFirstMatch [] := by
  induction ls with
  | nil => simp
  | cons m ls ih =>
    obtain ⟨hm, hls⟩ := h
    rw [List.append_nil] at hm
    rw [textOf_cons, List.mem_append, not_or] at hlong hkelvin
    intro l hl hblank
    rcases List.mem_cons.1 hl with rfl | hl
    · have hend := fun hident => hm.atWordEnd_of_identifier hident hls hlong.2 hkelvin.2
      exact (hm.alone hblank hend).spelled hlong.1
    · exact ih hls hlong.2 hkelvin.2 l hl hblank

/-! ## Joining -/

/-- A single blank. -/
def space : Lexeme :=
  ⟨.blank, [' ']⟩

/-- Lexemes that are first matches of their own texts stay so with single blanks between
    them. -/
theorem lexed_intersperse {ms : List Lexeme}
    (h : ∀ m ∈ ms, m.lexClass ≠ .blank ∧ m.IsFirstMatch []) : Lexed (ms.intersperse space) [] := by
  induction ms with
  | nil => trivial
  | cons m ms ih =>
    rw [List.forall_mem_cons] at h
    obtain ⟨⟨hm, hfirst⟩, hms⟩ := h
    cases ms with
    | nil => exact ⟨hfirst, trivial⟩
    | cons n ms =>
      rw [List.intersperse_cons_cons]
      refine ⟨hfirst.of_leading hm (leading_blank (by decide) _).symm, ?_, ih hms⟩
      -- The blank goes no further, since the next lexeme begins with a visible character.
      refine Lexeme.isFirstMatch_blank_iff.2 ⟨List.cons_ne_nil _ _,
        List.forall_mem_singleton.2 (by decide), ?_⟩
      obtain ⟨hn, hnfirst⟩ := hms n List.mem_cons_self
      obtain ⟨c, cs, hc⟩ := List.exists_cons_of_ne_nil hnfirst.nonempty
      have hvisible := (hnfirst.visible_ends hn).1 c (by rw [hc]; rfl)
      have hhead : (textOf ((n :: ms).intersperse space) ++ []).head? = some c := by
        cases ms <;> simp [hc]
      intro d hd
      rw [hhead] at hd
      cases hd
      exact hvisible

theorem textOf_intersperse (ms : List Lexeme) :
    textOf (ms.intersperse space) = [' '].intercalate (ms.map Lexeme.text) := by
  induction ms with
  | nil => rfl
  | cons m ms ih =>
    cases ms with
    | nil => simp
    | cons n ms =>
      rw [List.intersperse_cons_cons, textOf_cons, textOf_cons, ih]
      simp [space, List.intercalate_cons_cons]

theorem filterMap_face?_intersperse (ms : List Lexeme) :
    (ms.intersperse space).filterMap Lexeme.face? = ms.filterMap Lexeme.face? := by
  induction ms with
  | nil => rfl
  | cons m ms ih =>
    cases ms with
    | nil => rfl
    | cons n ms =>
      rw [List.intersperse_cons_cons, List.filterMap_cons, space, filterMap_face?_blank, ← space,
        ih, ← List.filterMap_cons]

/-- The lexemes that stand for tokens. -/
def visible (ls : List Lexeme) : List Lexeme :=
  ls.filter fun l => l.lexClass ≠ .blank

theorem filterMap_face?_visible (ls : List Lexeme) :
    (visible ls).filterMap Lexeme.face? = ls.filterMap Lexeme.face? := by
  rw [visible, List.filterMap_filter]
  refine List.filterMap_congr fun l _ => ?_
  obtain ⟨k, t⟩ := l
  cases k <;> rfl

theorem map_text_tokensOf (ls : List Lexeme) :
    (tokensOf ls).map Token.text = (visible ls).map Lexeme.tokenText := by
  have hface : (tokensOf ls).map Token.text = ((tokensOf ls).map face).map Prod.snd := by
    rw [List.map_map]
    rfl
  rw [hface, map_face_tokensOf, ← filterMap_face?_visible, List.map_filterMap,
    ← List.filterMap_eq_map]
  refine List.filterMap_congr fun l hl => ?_
  have hblank : l.lexClass ≠ .blank := by simpa using (List.mem_filter.1 hl).2
  obtain ⟨k, t⟩ := l
  cases k with
  | blank => exact absurd rfl hblank
  | _ => rfl

/-- The texts of the tokens of a query that holds neither a long s nor a Kelvin sign, with
    single blanks between them, have tokens of the same classes and texts. -/
theorem token_texts_retokenize {sql : String} {ts : List Token} (h : tokenize sql = .ok ts)
    (hlong : longS ∉ sql.toList) (hkelvin : kelvin ∉ sql.toList) :
    ∃ us, tokenize (String.intercalate " " (ts.map Token.text)) = .ok us ∧
      us.map face = ts.map face := by
  obtain ⟨hrest, hts⟩ := tokenize_eq_ok_iff.1 h
  have hlexed := lexed_cut sql.toList
  have htext := Paren.textOf_cut hrest
  rw [hrest] at hlexed
  generalize (cut sql.toList).lexemes = ls at hts hlexed htext
  rw [← htext] at hlong hkelvin
  -- The joined text is made of the lexemes of the tokens, each spelled as its token.
  have halone : ∀ m ∈ (visible ls).map Lexeme.spelled, m.lexClass ≠ .blank ∧ m.IsFirstMatch [] := by
    intro m hm
    obtain ⟨l, hl, rfl⟩ := List.mem_map.1 hm
    obtain ⟨hmem, hblank⟩ := List.mem_filter.1 hl
    have hblank : l.lexClass ≠ .blank := by simpa using hblank
    exact ⟨hblank, spelled_alone hlexed hlong hkelvin l hmem hblank⟩
  have hreads : Reads (String.intercalate " " (ts.map Token.text)).toList (ts.map face) := by
    refine ⟨_, ?_, lexed_intersperse halone, ?_⟩
    · rw [textOf_intersperse, String.toList_intercalate, hts, map_text_tokensOf, List.map_map,
        List.map_map]
      rfl
    · rw [filterMap_face?_intersperse, List.filterMap_map, hts, map_face_tokensOf,
        ← filterMap_face?_visible]
      exact List.filterMap_congr fun l _ => l.face?_spelled
  exact exists_tokenize_of_reads hreads

/-- Words in any case next to numbers, points, operators and a literal with blanks in it. -/
theorem token_texts_retokenize_dense :
    let sql := "select t1.b,1.5<=x.2||'a  (b' from _k"
    let ts : List Token := [⟨.keyword, "SELECT", 1⟩, ⟨.identifier, "T1", 1⟩, ⟨.symbol, ".", 1⟩,
      ⟨.identifier, "B", 1⟩, ⟨.symbol, ",", 1⟩, ⟨.number, "1.5", 1⟩, ⟨.operator, "<", 1⟩,
      ⟨.operator, "=", 1⟩, ⟨.identifier, "X", 1⟩, ⟨.symbol, ".", 1⟩, ⟨.number, "2", 1⟩,
      ⟨.operator, "||", 1⟩, ⟨.string, "'a  (b'", 1⟩, ⟨.keyword, "FROM", 1⟩,
      ⟨.identifier, "_K", 1⟩]
    tokenize sql = .ok ts ∧ longS ∉ sql.toList ∧ kelvin ∉ sql.toList ∧
      ∃ us, tokenize (String.intercalate " " (ts.map Token.text)) = .ok us ∧
        us.map face = ts.map face := by
  intro sql ts
  have htokens : tokenize sql = .ok ts := by decide +kernel
  have hlong : longS ∉ sql.toList := by decide +kernel
  have hkelvin : kelvin ∉ sql.toList := by decide +kernel
  exact ⟨htokens, hlong, hkelvin, token_texts_retokenize htokens hlong hkelvin⟩

end QueryLint.Token

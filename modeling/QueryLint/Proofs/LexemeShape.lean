/-
  QueryLint.Proofs.LexemeShape

  What the text of a lexeme looks like, class by class: `LexClass.Shape`. Only a string
  literal holds a quote or a backslash, and outside string literals only a symbol is a
  parenthesis, so every other lexeme is plain (`LexClass.Shape.plain`).
-/
import QueryLint.Proofs.Lexing

namespace QueryLint.Token

open QueryLint.Text

/-! ## Between the quotes of a string literal -/

/-- A sequence of string pieces: a character that is neither a quote nor a backslash, or a
    backslash with a character that is no line break. -/
inductive Pieces : List Char → Prop where
  | nil : Pieces []
  | plain {c : Char} {cs : List Char} : c ≠ '\'' → c ≠ '\\' → Pieces cs → Pieces (c :: cs)
  | escaped {c : Char} {cs : List Char} : c ≠ '\n' → Pieces cs → Pieces ('\\' :: c :: cs)

/-- The closing quote comes right after a sequence of pieces. -/
theorem pieces_of_closingQuote? {cs : List Char} {n : Nat} (h : closingQuote? cs = some n) :
    ∃ body rest, cs = body ++ '\'' :: rest ∧ Pieces body ∧ n = body.length + 1 := by
  fun_induction closingQuote? cs generalizing n with
  | case1 => cases h
  | case2 cs =>
    cases h
    exact ⟨[], cs, rfl, .nil, rfl⟩
  | case3 => cases h
  | case4 => cases h
  | case5 c cs hc ih =>
    obtain ⟨m, hm, rfl⟩ := Option.map_eq_some_iff.1 h
    obtain ⟨body, rest, rfl, hbody, rfl⟩ := ih hm
    -- A backslash and what it takes are one piece, so both go into the body.
    exact ⟨'\\' :: c :: body, rest, rfl, .escaped hc hbody, rfl⟩
  | case6 c cs hquote hlast hslash ih =>
    have hbackslash := ne_backslash_of_cases hlast hslash
    obtain ⟨m, hm, rfl⟩ := Option.map_eq_some_iff.1 h
    obtain ⟨body, rest, rfl, hbody, rfl⟩ := ih hm
    exact ⟨c :: body, rest, rfl, .plain hquote hbackslash hbody, rfl⟩

/-! ## Shapes -/

/-- What the text of a lexeme of a class looks like. -/
def LexClass.Shape : LexClass → List Char → Prop
  | keyword, t => ∃ word ∈ keywordLetters, spellsWord word t = true ∧ t.length = word.length
  | aggregate, t => ∃ word ∈ aggregateLetters, spellsWord word t = true ∧ t.length = word.length
  | star, t => t = ['*']
  | identifier, t => ∃ c cs, t = c :: cs ∧ isIdentStart c = true ∧ ∀ d ∈ cs, isAsciiWord d = true
  | number, t => t ≠ [] ∧ ∀ c ∈ t, c.isDigit = true ∨ c = '.'
  | string, t => ∃ body, t = '\'' :: (body ++ ['\'']) ∧ Pieces body
  | operator, t => t ∈ operators
  | symbol, t => ∃ c ∈ symbols, t = [c]
  | blank, t => t ≠ [] ∧ ∀ c ∈ t, isBlank c = true

theorem spellsWord_take {word cs : List Char} (h : spellsWord word cs = true) :
    spellsWord word (cs.take word.length) = true := by
  induction word generalizing cs with
  | nil => rfl
  | cons w ws ih =>
    cases cs with
    | nil => cases h
    | cons c cs =>
      rw [spellsWord, Bool.and_eq_true] at h
      rw [List.length_cons, List.take_succ_cons, spellsWord, h.1, ih h.2]
      rfl

theorem shape_of_wordLength? {dictionary : List (List Char)} {cs : List Char} {n : Nat}
    (h : wordLength? dictionary cs = some n) :
    ∃ word ∈ dictionary, spellsWord word (cs.take n) = true ∧ (cs.take n).length = word.length := by
  obtain ⟨word, hfind, rfl⟩ := Option.map_eq_some_iff.1 h
  have hstart := List.find?_some hfind
  rw [startsWithWord, Bool.and_eq_true] at hstart
  have hle := spellsWord_length_le hstart.1
  refine ⟨word, List.mem_of_find?_eq_some hfind, spellsWord_take hstart.1, ?_⟩
  rw [List.length_take]
  omega

theorem shape_of_fractionLength? {cs : List Char} {n : Nat} (h : fractionLength? cs = some n) :
    ∀ c ∈ cs.take n, c.isDigit = true ∨ c = '.' := by
  unfold fractionLength? at h
  split at h
  · rename_i cs
    simp only at h
    split at h
    · cases h
      intro c hc
      rw [List.take_succ_cons, take_spanLength] at hc
      rcases List.mem_cons.1 hc with hc | hc
      · exact Or.inr hc
      · exact Or.inl (List.mem_takeWhile_imp hc)
    · cases h
  · cases h

theorem shape_of_numberLength? {cs : List Char} {n : Nat} (h : numberLength? cs = some n) :
    ∀ c ∈ cs.take n, c.isDigit = true ∨ c = '.' := by
  have hdigits : ∀ c ∈ cs.take (spanLength Char.isDigit cs), c.isDigit = true ∨ c = '.' := by
    intro c hc
    rw [take_spanLength] at hc
    exact Or.inl (List.mem_takeWhile_imp hc)
  simp only [numberLength?] at h
  split at h
  · cases h
  · split at h
    · rename_i m hm
      cases h
      intro c hc
      rw [List.take_add] at hc
      rcases List.mem_append.1 hc with hc | hc
      · exact hdigits c hc
      · exact shape_of_fractionLength? hm c hc
    · split at h
      · cases h
        exact hdigits
      · cases h

theorem shape_of_operatorLength? {cs : List Char} {n : Nat} (h : operatorLength? cs = some n) :
    cs.take n ∈ operators := by
  obtain ⟨op, hfind, rfl⟩ := Option.map_eq_some_iff.1 h
  have hpre := List.find?_some hfind
  rw [← List.prefix_iff_eq_take.1 (List.isPrefixOf_iff_prefix.1 hpre)]
  exact List.mem_of_find?_eq_some hfind

theorem shape_of_oneLength? {p : Char → Bool} {cs : List Char} {n : Nat}
    (h : oneLength? p cs = some n) : ∃ c, p c = true ∧ cs.take n = [c] := by
  cases cs with
  | nil => cases h
  | cons c cs =>
    rw [oneLength?] at h
    split at h
    · rename_i hc
      cases h
      exact ⟨c, hc, rfl⟩
    · cases h

/-- What a class matches has its shape. -/
theorem LexClass.shape_of_matchLength? {k : LexClass} {cs : List Char} {n : Nat}
    (h : k.matchLength? cs = some n) : k.Shape (cs.take n) := by
  have hne : cs.take n ≠ [] := by
    have hbounds := LexClass.matchLength?_bounds h
    apply List.ne_nil_of_length_pos
    rw [List.length_take]
    omega
  cases k with
  | keyword => exact shape_of_wordLength? h
  | aggregate => exact shape_of_wordLength? h
  | star =>
    obtain ⟨c, hc, htake⟩ := shape_of_oneLength? h
    rw [beq_iff_eq] at hc
    rw [htake, hc]
    rfl
  | identifier =>
    rw [LexClass.matchLength?] at h
    cases cs with
    | nil => cases h
    | cons c cs =>
      rw [identLength?] at h
      split at h
      · rename_i hc
        cases h
        refine ⟨c, cs.takeWhile isAsciiWord, ?_, hc, fun d hd => List.mem_takeWhile_imp hd⟩
        rw [List.take_succ_cons, take_spanLength]
      · cases h
  | number => exact ⟨hne, shape_of_numberLength? h⟩
  | string =>
    rw [LexClass.matchLength?] at h
    unfold stringLength? at h
    split at h
    · obtain ⟨m, hm, rfl⟩ := Option.map_eq_some_iff.1 h
      obtain ⟨body, rest, rfl, hbody, rfl⟩ := pieces_of_closingQuote? hm
      refine ⟨body, ?_, hbody⟩
      rw [List.take_succ_cons, List.take_length_add_append]
      rfl
    · cases h
  | operator => exact shape_of_operatorLength? h
  | symbol =>
    obtain ⟨c, hc, htake⟩ := shape_of_oneLength? h
    exact ⟨c, by simpa using hc, htake⟩
  | blank =>
    rw [LexClass.matchLength?] at h
    simp only [blankLength?] at h
    split at h
    · cases h
    · cases h
      refine ⟨hne, fun c hc => ?_⟩
      rw [take_spanLength] at hc
      exact List.mem_takeWhile_imp hc

/-- A lexeme that is a first match has the shape of its class. -/
theorem Lexeme.IsFirstMatch.shape {l : Lexeme} {rest : List Char} (h : l.IsFirstMatch rest) :
    l.lexClass.Shape l.text := by
  have hm := firstMatch?_matchLength? (Lexeme.isFirstMatch_iff.1 h)
  have hshape := LexClass.shape_of_matchLength? hm
  rwa [List.take_left'] at hshape
  rfl

/-- Every lexeme of a text has the shape of its class. -/
theorem shape_of_lexed {ls : List Lexeme} {rest : List Char} (h : Lexed ls rest) :
    ∀ l ∈ ls, l.lexClass.Shape l.text := by
  induction ls with
  | nil => simp
  | cons m ls ih =>
    obtain ⟨hm, hls⟩ := h
    intro l hl
    rcases List.mem_cons.1 hl with rfl | hl
    · exact hm.shape
    · exact ih hls l hl

/-! ## Plain lexemes -/

/-- A character that neither opens, closes or escapes in a string literal nor is a
    parenthesis. -/
def isPlain (c : Char) : Bool :=
  c != '\'' && c != '\\' && c != '(' && c != ')'

/-- A class of characters that holds no quote, backslash or parenthesis is plain. -/
theorem isPlain_of_class {p : Char → Bool} (hp : ['\'', '\\', '(', ')'].any p = false)
    {c : Char} (hc : p c = true) : isPlain c = true := by
  -- A character of the class is none of the four that the class leaves out.
  have hne : ∀ d ∈ ['\'', '\\', '(', ')'], c ≠ d := by
    rintro d hd rfl
    exact List.any_eq_false.1 hp c hd hc
  simp only [List.mem_cons, List.not_mem_nil, or_false, forall_eq_or_imp, forall_eq] at hne
  obtain ⟨h1, h2, h3, h4⟩ := hne
  simp [isPlain, h1, h2, h3, h4]

theorem isPlain_of_isWord {c : Char} (h : isWord c = true) : isPlain c = true :=
  isPlain_of_class (by decide) h

/-- The letters of a whole dictionary word are plain. -/
theorem isPlain_of_spellsWord {dictionary : List (List Char)} (hd : Spelled dictionary)
    {word t : List Char} (hword : word ∈ dictionary) (h : spellsWord word t = true)
    (hlen : t.length = word.length) : ∀ c ∈ t, isPlain c = true := by
  intro c hc
  rw [← List.take_length (l := t), hlen] at hc
  obtain ⟨w, hw, hs⟩ := exists_letter_of_spellsWord h c hc
  exact isPlain_of_isWord (isWord_of_spellsLetter ((hd word hword).2 w hw) hs)

/-- Lexemes that are neither string literals nor symbols hold plain characters only. -/
theorem LexClass.Shape.plain {k : LexClass} {t : List Char} (h : k.Shape t)
    (hstring : k ≠ .string) (hsymbol : k ≠ .symbol) : ∀ c ∈ t, isPlain c = true := by
  cases k with
  | keyword =>
    obtain ⟨word, hword, hs, hlen⟩ := h
    exact isPlain_of_spellsWord spelled_keywordLetters hword hs hlen
  | aggregate =>
    obtain ⟨word, hword, hs, hlen⟩ := h
    exact isPlain_of_spellsWord spelled_aggregateLetters hword hs hlen
  | star =>
    intro c hc
    rw [show t = ['*'] from h, List.mem_singleton] at hc
    rw [hc]
    decide
  | identifier =>
    obtain ⟨c, cs, rfl, hc, hcs⟩ := h
    intro d hd
    rcases List.mem_cons.1 hd with rfl | hd
    · exact isPlain_of_class (by decide) hc
    · exact isPlain_of_isWord (isWord_of_isAsciiWord (hcs d hd))
  | number =>
    intro c hc
    rcases h.2 c hc with hc | rfl
    · exact isPlain_of_isWord (isWord_of_isDigit hc)
    · decide
  | string => exact absurd rfl hstring
  | operator =>
    have hall : (operators.all fun op => op.all isPlain) = true := by decide
    exact List.all_eq_true.1 (List.all_eq_true.1 hall t h)
  | symbol => exact absurd rfl hsymbol
  | blank =>
    intro c hc
    exact isPlain_of_class (by decide) (h.2 c hc)

end QueryLint.Token

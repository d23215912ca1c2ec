/-
  QueryLint.Proofs.LetterCase

  Verdicts do not depend on the case of letters. Upper case is pushed through the lexer one
  part at a time: no recogniser sees it (`LexClass.matchLength?_upper`), so a text in upper
  case is cut at the same places (`cut_upper`) and its tokens are those of the text, except
  that string literals are in upper case too (`ofChars_upper`). The checks read nothing of a
  literal but that it is one, and nothing of the raw text but its outline, which has no case.

  `Checker.verdict_ignores_case` is the statement for two texts that are the same in upper
  case.
-/
import QueryLint.Proofs.StringTracking
import QueryLint.Proofs.Verdict
import Mathlib.Data.List.Forall2

namespace QueryLint.Text

/-! ## Characters in upper case -/

@[simp] theorem isWord_toUpper (c : Char) : isWord c.toUpper = isWord c :=
  apply_toUpper isWord (by decide) c

@[simp] theorem upper_toUpper (c : Char) : upper c.toUpper = upper c :=
  apply_toUpper upper (by decide) c

theorem spellsLetter_toUpper (w c : Char) : spellsLetter w c.toUpper = spellsLetter w c := by
  have hlong : (c.toUpper == longS) = (c == longS) := apply_toUpper (· == longS) (by decide) c
  have hkelvin : (c.toUpper == kelvin) = (c == kelvin) := apply_toUpper (· == kelvin) (by decide) c
  rw [spellsLetter, spellsLetter, toUpper_toUpper, hlong, hkelvin]

theorem spellsWord_upper (word cs : List Char) :
    spellsWord word (upperAscii cs) = spellsWord word cs := by
  induction word generalizing cs with
  | nil => rfl
  | cons w word ih =>
    cases cs with
    | nil => rfl
    | cons c cs =>
      have hrest := ih cs
      rw [upperAscii] at hrest
      rw [upperAscii, List.map_cons, spellsWord, spellsWord, spellsLetter_toUpper, hrest]

theorem outlineFrom_upper (gap : Bool) (cs : List Char) :
    outlineFrom gap (upperAscii cs) = outlineFrom gap cs := by
  rw [upperAscii]
  induction cs generalizing gap with
  | nil => rfl
  | cons c cs ih =>
    rw [List.map_cons]
    cases hc : isBlank c with
    | true =>
      rw [outlineFrom_blank ((isBlank_toUpper c).trans hc), outlineFrom_blank hc, ih]
    | false =>
      rw [outlineFrom_visible ((isBlank_toUpper c).trans hc), outlineFrom_visible hc, ih,
        toUpper_toUpper]

end QueryLint.Text

namespace QueryLint.Token

open QueryLint.Text

/-! ## Recognisers -/

theorem atWordEnd_upper (cs : List Char) : atWordEnd (upperAscii cs) = atWordEnd cs := by
  cases cs with
  | nil => rfl
  | cons c cs => exact congrArg (!·) (isWord_toUpper c)

theorem wordLength?_upper (dictionary : List (List Char)) (cs : List Char) :
    wordLength? dictionary (upperAscii cs) = wordLength? dictionary cs := by
  have hstarts : (fun word => startsWithWord word (upperAscii cs)) =
      fun word => startsWithWord word cs := by
    funext word
    have hdrop : (upperAscii cs).drop word.length = upperAscii (cs.drop word.length) :=
      List.map_drop.symm
    rw [startsWithWord, startsWithWord, spellsWord_upper, hdrop, atWordEnd_upper]
  rw [wordLength?, wordLength?, hstarts]

theorem spanLength_upper {p : Char → Bool} (hp : ∀ c : Char, p c.toUpper = p c) (cs : List Char) :
    spanLength p (upperAscii cs) = spanLength p cs := by
  have hcomp : p ∘ Char.toUpper = p := funext hp
  rw [spanLength, spanLength, upperAscii, List.takeWhile_map, hcomp, List.length_map]

theorem oneLength?_upper {p : Char → Bool} (hp : ∀ c : Char, p c.toUpper = p c) (cs : List Char) :
    oneLength? p (upperAscii cs) = oneLength? p cs := by
  cases cs with
  | nil => rfl
  | cons c cs => simp only [upperAscii, List.map_cons, oneLength?, hp]

theorem identLength?_upper (cs : List Char) : identLength? (upperAscii cs) = identLength? cs := by
  cases cs with
  | nil => rfl
  | cons c cs =>
    have hstart : isIdentStart c.toUpper = isIdentStart c :=
      apply_toUpper isIdentStart (by decide) c
    have hspan : spanLength isAsciiWord (upperAscii cs) = spanLength isAsciiWord cs :=
      spanLength_upper (apply_toUpper isAsciiWord (by decide)) cs
    rw [upperAscii] at hspan
    rw [upperAscii, List.map_cons, identLength?, identLength?, hstart, hspan]

theorem fractionLength?_cons (c : Char) (cs : List Char) :
    fractionLength? (c :: cs) =
      if c = '.' ∧ spanLength Char.isDigit cs ≠ 0 ∧ atWordEnd (cs.drop (spanLength Char.isDigit cs))
      then some (spanLength Char.isDigit cs + 1) else none := by
  by_cases hc : c = '.'
  · subst hc
    simp [fractionLength?]
  · rw [if_neg fun h => hc h.1]
    unfold fractionLength?
    split
    · rename_i heq
      injection heq with hpoint _
      exact absurd hpoint hc
    · rfl

theorem isDigit_toUpper (c : Char) : c.toUpper.isDigit = c.isDigit :=
  apply_toUpper Char.isDigit (by decide) c

theorem fractionLength?_upper (cs : List Char) :
    fractionLength? (upperAscii cs) = fractionLength? cs := by
  cases cs with
  | nil => rfl
  | cons c cs =>
    have hpoint := toUpper_eq_iff (x := '.') (by decide) c
    have hspan := spanLength_upper isDigit_toUpper cs
    have hend := atWordEnd_upper (cs.drop (spanLength Char.isDigit cs))
    rw [upperAscii, List.map_drop] at hend
    rw [upperAscii] at hspan
    simp only [upperAscii, List.map_cons, fractionLength?_cons, hpoint, hspan, hend]

theorem numberLength?_upper (cs : List Char) :
    numberLength? (upperAscii cs) = numberLength? cs := by
  have hdrop : ∀ n, (upperAscii cs).drop n = upperAscii (cs.drop n) := fun n => List.map_drop.symm
  simp only [numberLength?, spanLength_upper isDigit_toUpper, hdrop, fractionLength?_upper,
    atWordEnd_upper]

theorem closingQuote?_upper (cs : List Char) :
    closingQuote? (upperAscii cs) = closingQuote? cs := by
  -- A backslash takes the next character too, so the induction is that of the function.
  rw [upperAscii]
  fun_induction closingQuote? cs with
  | case1 => rfl
  | case2 cs => rfl
  | case3 => rfl
  | case4 cs => rfl
  | case5 c cs hc ih =>
    have hbreak : c.toUpper ≠ '\n' := mt (toUpper_eq_iff (by decide) c).1 hc
    rw [List.map_cons, List.map_cons, closingQuote?_cons]
    simp only [hbreak, if_false, ih]
    rfl
  | case6 c cs hquote hlast hslash ih =>
    have hbackslash := ne_backslash_of_cases hlast hslash
    have hquoteUpper : c.toUpper ≠ '\'' := mt (toUpper_eq_iff (by decide) c).1 hquote
    have hslashUpper : c.toUpper ≠ '\\' := mt (toUpper_eq_iff (by decide) c).1 hbackslash
    rw [List.map_cons, closingQuote?_cons, if_neg hquoteUpper, if_neg hslashUpper, ih]

theorem stringLength?_upper (cs : List Char) :
    stringLength? (upperAscii cs) = stringLength? cs := by
  cases cs with
  | nil => rfl
  | cons c cs =>
    have hquote := toUpper_eq_iff (x := '\'') (by decide) c
    have hclose := closingQuote?_upper cs
    rw [upperAscii] at hclose
    simp only [upperAscii, List.map_cons, stringLength?_cons, hquote, hclose]

theorem operatorLength?_upper (cs : List Char) :
    operatorLength? (upperAscii cs) = operatorLength? cs := by
  have hprefix : ∀ op : List Char, op.all isCaseless = true → ∀ cs,
      op.isPrefixOf (upperAscii cs) = op.isPrefixOf cs := by
    intro op
    induction op with
    | nil => intro _ cs; simp
    | cons x op ih =>
      intro hop cs
      rw [List.all_cons, Bool.and_eq_true] at hop
      cases cs with
      | nil => rfl
      | cons c cs =>
        have hx : (x == c.toUpper) = (x == c) := by
          rw [Bool.eq_iff_iff, beq_iff_eq, beq_iff_eq, eq_comm, toUpper_eq_iff hop.1, eq_comm]
        rw [upperAscii, List.map_cons, List.isPrefixOf_cons_cons, List.isPrefixOf_cons_cons, hx]
        exact congrArg _ (ih hop.2 cs)
  have hall : (operators.all fun op => op.all isCaseless) = true := by decide
  have hfilter : operators.filter (·.isPrefixOf (upperAscii cs)) =
      operators.filter (·.isPrefixOf cs) :=
    List.filter_congr fun op hop => hprefix op (List.all_eq_true.1 hall op hop) cs
  rw [operatorLength?, operatorLength?, ← List.head?_filter, ← List.head?_filter, hfilter]

/-- No class of lexemes sees the case of letters. -/
theorem LexClass.matchLength?_upper (k : LexClass) (cs : List Char) :
    k.matchLength? (upperAscii cs) = k.matchLength? cs := by
  cases k with
  | keyword => exact wordLength?_upper keywordLetters cs
  | aggregate => exact wordLength?_upper aggregateLetters cs
  | star => exact oneLength?_upper (apply_toUpper (· == '*') (by decide)) cs
  | identifier => exact identLength?_upper cs
  | number => exact numberLength?_upper cs
  | string => exact stringLength?_upper cs
  | operator => exact operatorLength?_upper cs
  | symbol => exact oneLength?_upper (apply_toUpper (symbols.contains ·) (by decide)) cs
  | blank =>
    have hspan := spanLength_upper isBlank_toUpper cs
    simp only [LexClass.matchLength?, blankLength?, hspan]

theorem firstMatch?_upper (cs : List Char) : firstMatch? (upperAscii cs) = firstMatch? cs := by
  simp only [firstMatch?, LexClass.matchLength?_upper]

/-! ## Lexemes and tokens -/

/-- A lexeme with its text in upper case. -/
def Lexeme.raised (l : Lexeme) : Lexeme :=
  ⟨l.lexClass, upperAscii l.text⟩

/-- A text in upper case is cut where the text is cut. -/
theorem cut_upper (cs : List Char) :
    cut (upperAscii cs) = ⟨(cut cs).lexemes.map Lexeme.raised, upperAscii (cut cs).rest⟩ := by
  fun_induction cut cs with
  | case1 cs h => exact cut_of_none ((firstMatch?_upper cs).trans h)
  | case2 cs k n h tail ih =>
    have htake : (upperAscii cs).take n = upperAscii (cs.take n) := List.map_take.symm
    have hdrop : (upperAscii cs).drop n = upperAscii (cs.drop n) := List.map_drop.symm
    rw [cut_of_some ((firstMatch?_upper cs).trans h), htake, hdrop, ih]
    rfl

/-- A token with the text of a string literal in upper case; other texts are so already. -/
def raised (t : Token) : Token :=
  if t.kind = .string then { t with text := String.ofList (upperAscii t.text.toList) } else t

theorem Lexeme.token?_raised (l : Lexeme) (line : Nat) :
    l.raised.token? line = (l.token? line).map Token.raised := by
  obtain ⟨k, text⟩ := l
  have hupper : (upperAscii text).map upper = text.map upper := by
    rw [upperAscii, List.map_map]
    exact congrArg (text.map ·) (funext upper_toUpper)
  cases k with
  | blank => rfl
  | string => simp [Lexeme.token?, Lexeme.raised, LexClass.kind?, Lexeme.tokenText, Token.raised]
  | _ => simp [Lexeme.token?, Lexeme.raised, LexClass.kind?, Lexeme.tokenText, Token.raised, hupper]

theorem lineBreaks_upper (cs : List Char) : lineBreaks (upperAscii cs) = lineBreaks cs := by
  have hbreak : (· == '\n') ∘ Char.toUpper = (· == '\n') :=
    funext (apply_toUpper (· == '\n') (by decide))
  rw [lineBreaks, lineBreaks, upperAscii, List.count_eq_countP, List.countP_map, hbreak,
    List.count_eq_countP]

theorem ofLexemes_raised (line : Nat) (ls : List Lexeme) :
    ofLexemes line (ls.map Lexeme.raised) = (ofLexemes line ls).map Token.raised := by
  induction ls generalizing line with
  | nil => rfl
  | cons l ls ih =>
    rw [List.map_cons, ofLexemes, ofLexemes, List.map_append, Lexeme.token?_raised,
      show lineBreaks l.raised.text = lineBreaks l.text from lineBreaks_upper l.text, ih]
    cases l.token? line <;> rfl

theorem lineAfter_raised (line : Nat) (ls : List Lexeme) :
    lineAfter line (ls.map Lexeme.raised) = lineAfter line ls := by
  induction ls generalizing line with
  | nil => rfl
  | cons l ls ih =>
    rw [List.map_cons, lineAfter, lineAfter,
      show lineBreaks l.raised.text = lineBreaks l.text from lineBreaks_upper l.text, ih]

/-- Where no class matches stands no letter, since a letter begins an identifier. -/
theorem toUpper_of_firstMatch?_none {c : Char} {cs : List Char} (h : firstMatch? (c :: cs) = none) :
    c.toUpper = c := by
  apply toUpper_of_not_mem
  intro hc
  have hall : lowerLetters.all isIdentStart = true := by decide
  have hident := List.findSome?_eq_none_iff.1 h .identifier (LexClass.mem_all _)
  simp [LexClass.matchLength?, identLength?, List.all_eq_true.1 hall c hc] at hident

/-- The tokens of a text in upper case are those of the text with their literals in upper
    case, and its error is that of the text. -/
theorem ofChars_upper (cs : List Char) :
    ofChars (upperAscii cs) = (ofChars cs).map (List.map Token.raised) := by
  rw [ofChars, ofChars, cut_upper]
  cases hrest : (cut cs).rest with
  | nil => exact congrArg Except.ok (ofLexemes_raised 1 _)
  | cons c r =>
    -- The error names the character where the cut stops, which is no letter.
    have hcut : cut cs = ⟨(cut cs).lexemes, c :: r⟩ := by rw [← hrest]
    have hsame := toUpper_of_firstMatch?_none (cut_eq_iff.1 hcut).2.2
    simp only [upperAscii, List.map_cons, hsame, lineAfter_raised]
    rfl

/-! ## Verdicts -/

/-- Two tokens that are the same, up to the case of letters if they are string literals. -/
structure SameUpToCase (t u : Token) : Prop where
  kind : t.kind = u.kind
  line : t.line = u.line
  text : if t.kind = .string then upperAscii t.text.toList = upperAscii u.text.toList
    else t.text = u.text

/-- Two outcomes of the lexer: the same error, or tokens that are the same one by one, up to
    the case of letters in string literals. -/
def AgreeUpToCase : Except LexError (List Token) → Except LexError (List Token) → Prop
  | .error e, .error f => e = f
  | .ok ts, .ok us => List.Forall₂ SameUpToCase ts us
  | _, _ => False

@[simp] theorem raised_kind (t : Token) : t.raised.kind = t.kind := by
  rw [raised]
  split <;> rfl

@[simp] theorem raised_line (t : Token) : t.raised.line = t.line := by
  rw [raised]
  split <;> rfl

theorem raised_of_ne_string {t : Token} (ht : t.kind ≠ .string) : t.raised = t :=
  if_neg ht

theorem sameUpToCase_of_raised {t u : Token} (h : t.raised = u.raised) : SameUpToCase t u := by
  have hkind : t.kind = u.kind := by rw [← raised_kind t, h, raised_kind]
  have hline : t.line = u.line := by rw [← raised_line t, h, raised_line]
  refine ⟨hkind, hline, ?_⟩
  split
  case isTrue hstring =>
    rw [raised, raised, if_pos hstring, if_pos (hkind ▸ hstring)] at h
    exact String.ofList_injective (congrArg Token.text h)
  case isFalse hplain =>
    rw [raised_of_ne_string hplain, raised_of_ne_string (hkind ▸ hplain)] at h
    exact congrArg Token.text h

theorem agreeUpToCase_of_raised {x y : Except LexError (List Token)}
    (h : x.map (List.map Token.raised) = y.map (List.map Token.raised)) : AgreeUpToCase x y := by
  cases x with
  | error e =>
    cases y with
    | error f => exact Except.error.inj h
    | ok us => cases h
  | ok ts =>
    cases y with
    | error f => cases h
    | ok us =>
      have hmap : List.Forall₂ Eq (ts.map Token.raised) (us.map Token.raised) :=
        List.forall₂_eq_eq_eq ▸ Except.ok.inj h
      rw [List.forall₂_map_left_iff, List.forall₂_map_right_iff] at hmap
      exact hmap.imp fun _ _ => sameUpToCase_of_raised

theorem AgreeUpToCase.exists_first {x : Except LexError (List Token)} {u : Token}
    {us : List Token} (h : AgreeUpToCase x (.ok (u :: us))) :
    ∃ t ts, x = .ok (t :: ts) ∧ t.kind = u.kind := by
  cases x with
  | error e => cases h
  | ok ts =>
    cases h with
    | cons hsame _ => exact ⟨_, _, rfl, hsame.kind⟩

/-- The string literals of a text begin with a quote, so upper case does not change how its
    tokens read. -/
theorem bare_raised {sql : String} {ts : List Token} (h : tokenize sql = .ok ts) :
    (ts.map Token.raised).map bare = ts.map bare := by
  obtain ⟨_, hts⟩ := tokenize_eq_ok_iff.1 h
  have hquoted : ∀ t ∈ ts, t.kind = .string → t.text.toList.head? = some '\'' := by
    rw [hts, ← ofLexemes_one_eq, forall_string_ofLexemes_iff (P := fun cs => cs.head? = some '\'')]
    intro l hl hstring
    obtain ⟨body, hbody, _⟩ := hstring ▸ shape_of_lexed (lexed_cut sql.toList) l hl
    rw [hbody]
    rfl
  rw [List.map_map]
  apply List.map_congr_left
  intro t ht
  by_cases hstring : t.kind = .string
  · have hhead := hquoted t ht hstring
    have hup : (upperAscii t.text.toList).head? = some '\'' := by
      rw [upperAscii, List.head?_map, hhead]
      rfl
    simp [raised, hstring, bare, reading, isQuoted, hhead, hup]
  · rw [Function.comp_apply, raised_of_ne_string hstring]

theorem leadingText?_raised {ts : List Token} (h : ∀ t us, ts = t :: us → t.kind ≠ .string) :
    Statement.leadingText? (ts.map Token.raised) = Statement.leadingText? ts := by
  cases ts with
  | nil => rfl
  | cons t us =>
    rw [List.map_cons, raised_of_ne_string (h t us rfl)]
    rfl

end QueryLint.Token

namespace QueryLint.Checker

open QueryLint.Text QueryLint.Token

/-- Upper case does not change a verdict, unless the query begins with a string literal. -/
theorem diagnose_upper {c : Checker} (hd : c.dialect ∈ Dialect.builtin) (sql : String)
    (hfirst : ∀ t ts, tokenize sql = .ok (t :: ts) → t.kind ≠ .string) :
    c.diagnose (String.ofList (upperAscii sql.toList)) = c.diagnose sql := by
  have htokens : tokenize (String.ofList (upperAscii sql.toList)) =
      (tokenize sql).map (List.map Token.raised) := by
    rw [tokenize, String.toList_ofList, ofChars_upper, tokenize]
  cases hsql : tokenize sql with
  | error e =>
    rw [hsql] at htokens
    rw [diagnose, diagnose, check, check, htokens, hsql]
    rfl
  | ok ts =>
    rw [hsql] at htokens
    have houtline :
        outline (String.ofList (upperAscii sql.toList)).toList = outline sql.toList := by
      rw [String.toList_ofList, outline, outlineFrom_upper, outline]
    have hleading := leadingText?_raised fun t us hts => hfirst t us (hts ▸ hsql)
    rw [diagnose, diagnose, check_congr hd houtline htokens hsql (bare_raised hsql) hleading]

/-- Two texts that are the same in upper case: the lexer fails on both with the same character
    and line, or gives tokens that are the same up to the case of letters in string literals;
    and unless they begin with a string literal, their diagnostics are the same. -/
theorem verdict_ignores_case {a b : String} (h : upperAscii a.toList = upperAscii b.toList) :
    AgreeUpToCase (tokenize a) (tokenize b) ∧
      ((∀ t ts, tokenize a = .ok (t :: ts) → t.kind ≠ .string) →
        ∀ d ∈ Dialect.builtin, ∀ extended : Bool,
          (Checker.mk d extended).diagnose a = (Checker.mk d extended).diagnose b) := by
  have hraised : (tokenize a).map (List.map Token.raised) =
      (tokenize b).map (List.map Token.raised) := by
    rw [tokenize, tokenize, ← ofChars_upper, ← ofChars_upper, h]
  have hagree := agreeUpToCase_of_raised hraised
  refine ⟨hagree, ?_⟩
  intro hfirst d hd extended
  -- Both verdicts are that on the text in upper case.
  have hfirst' : ∀ u us, tokenize b = .ok (u :: us) → u.kind ≠ .string := by
    intro u us hb
    rw [hb] at hagree
    obtain ⟨t, ts, ha, hkind⟩ := hagree.exists_first
    rw [← hkind]
    exact hfirst t ts ha
  have hA := diagnose_upper (c := ⟨d, extended⟩) hd a hfirst
  have hB := diagnose_upper (c := ⟨d, extended⟩) hd b hfirst'
  rw [← hA, ← hB, h]

/-- Keywords, a name and a literal, each in its own mix of cases. -/
theorem verdict_ignores_case_literal :
    tokenize "Select 'x' from t" = .ok [⟨.keyword, "SELECT", 1⟩, ⟨.string, "'x'", 1⟩,
      ⟨.keyword, "FROM", 1⟩, ⟨.identifier, "T", 1⟩] ∧
    AgreeUpToCase (tokenize "Select 'x' from t") (tokenize "sELECT 'X' FROM t") ∧
    ∀ d ∈ Dialect.builtin, ∀ extended : Bool,
      (Checker.mk d extended).diagnose "Select 'x' from t" =
        (Checker.mk d extended).diagnose "sELECT 'X' FROM t" := by
  have htokens : tokenize "Select 'x' from t" = .ok [⟨.keyword, "SELECT", 1⟩,
      ⟨.string, "'x'", 1⟩, ⟨.keyword, "FROM", 1⟩, ⟨.identifier, "T", 1⟩] := by decide +kernel
  obtain ⟨hagree, hverdict⟩ := verdict_ignores_case
    (show upperAscii "Select 'x' from t".toList = upperAscii "sELECT 'X' FROM t".toList by decide)
  refine ⟨htokens, hagree, hverdict ?_⟩
  intro t ts ht
  rw [htokens] at ht
  cases ht
  decide

end QueryLint.Checker

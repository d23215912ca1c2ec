/-
  QueryLint.Proofs.StringTracking

  Two parts of the program decide for themselves where string literals are. The lexer
  lets a backslash take the next character with it; a scan of the raw text only looks
  whether a backslash stands right before a quote. The two differ on a literal that ends
  in an escaped backslash: its closing quote stands right after a backslash, and a scan
  takes the rest of the text for more of the literal.

  `string_trackers_agree` says that nothing else comes between them. The step lemma is
  `Scan.after_lexeme`, for one lexeme read from outside strings; `Scan.after_lexemes` is
  the run over all of them.
-/
import QueryLint.Proofs.LexemeShape
import QueryLint.Proofs.Scan

namespace QueryLint.Paren

open QueryLint.Text QueryLint.Token

/-! ## One string literal -/

/-- Inside a string nothing is seen. -/
theorem seenFrom_cons_of_inString {s : Scan} (hs : s.inString = true) (i : Nat) (c : Char)
    (cs : List Char) : seenFrom s i (c :: cs) = seenFrom (s.step c) (i + c.utf8Size) cs := by
  rw [seenFrom_cons]
  simp [Scan.sees, hs]

theorem Scan.step_inString {s : Scan} (hs : s.inString = true) {c : Char}
    (hc : s.isDelimiter c = false) : (s.step c).inString = true := by
  simp [Scan.step, hs, hc]

/-- A scan that is in a string stays in it over string pieces and sees nothing there: the
    only quotes among them stand right after a backslash. -/
theorem Scan.after_pieces {body : List Char} (hbody : Pieces body) {s : Scan}
    (hs : s.inString = true) (i : Nat) :
    (s.after body).inString = true ∧ seenFrom s i body = [] := by
  induction hbody generalizing s i with
  | nil => exact ⟨hs, rfl⟩
  | @plain c cs hquote _ _ ih =>
    have hstep := Scan.step_inString hs (c := c) (by simp [Scan.isDelimiter, hquote])
    rw [Scan.after_cons, seenFrom_cons_of_inString hs]
    exact ih hstep _
  | @escaped c cs _ _ ih =>
    -- The backslash is a character of its own to the scan, and shields the one after it.
    have hslash := Scan.step_inString hs (c := '\\') (by simp [Scan.isDelimiter])
    have hstep := Scan.step_inString hslash (c := c) (by simp [Scan.isDelimiter, Scan.step])
    rw [Scan.after_cons, Scan.after_cons, seenFrom_cons_of_inString hs,
      seenFrom_cons_of_inString hslash]
    exact ih hstep _

/-- A scan that is outside strings and takes the next quote for one that enters a string. -/
structure Scan.Outside (s : Scan) : Prop where
  not_inString : s.inString = false
  not_escaping : s.previous ≠ some '\\'

theorem Scan.start_outside : Scan.start.Outside :=
  ⟨rfl, by decide⟩

/-- A text ends with two characters exactly if what stands before the last one ends with the
    first of them. -/
theorem pair_suffix_iff {a b : Char} {t : List Char} :
    [a, b] <:+ t ++ [b] ↔ t.getLast? = some a := by
  rw [List.getLast?_eq_some_iff]
  constructor
  · rintro ⟨u, hu⟩
    refine ⟨u, ?_⟩
    have hsplit : (u ++ [a]) ++ [b] = t ++ [b] := by simpa using hu
    exact (List.append_cancel_right hsplit).symm
  · rintro ⟨u, rfl⟩
    exact ⟨u, by simp⟩

/-- Read from outside, a string literal shows nothing and leaves a scan in a string exactly
    if a backslash stands right before its closing quote. -/
theorem Scan.after_literal {s : Scan} (hs : s.Outside) {body : List Char} (hbody : Pieces body)
    (i : Nat) :
    ((s.after ('\'' :: (body ++ ['\'']))).inString = true ↔
      ['\\', '\''] <:+ '\'' :: (body ++ ['\''])) ∧
    seenFrom s i ('\'' :: (body ++ ['\''])) = [] := by
  have hopen : s.step '\'' = ⟨true, some '\''⟩ := by
    simp [Scan.step, Scan.isDelimiter, hs.not_inString, hs.not_escaping]
  obtain ⟨hin, hseen⟩ := Scan.after_pieces hbody (s := ⟨true, some '\''⟩) rfl
    (i + '\''.utf8Size)
  have hprevious := Scan.after_previous ⟨true, some '\''⟩ body
  have hlast : ('\'' :: body).getLast? = body.getLast?.or (some '\'') := by
    cases body <;> simp [List.getLast?_cons]
  constructor
  · -- The last quote ends the string unless the character before it is a backslash.
    rw [← List.cons_append, pair_suffix_iff, hlast, List.cons_append, Scan.after_cons, hopen,
      Scan.after_append, ← hprevious]
    generalize Scan.after ⟨true, some '\''⟩ body = t at hin
    by_cases hp : t.previous = some '\\' <;> simp [Scan.step, Scan.isDelimiter, hin, hp]
  · rw [seenFrom_cons, hopen, seenFrom_append, hseen, seenFrom_cons_of_inString hin]
    simp [Scan.sees, Scan.isDelimiter, hs.not_escaping]

-- A literal that ends in an escaped backslash leaves a scan in a string.
example : (Scan.start.after ['\'', '\\', '\\', '\'']).inString = true := by decide

end QueryLint.Paren

namespace QueryLint.Token

open QueryLint.Text QueryLint.Paren

/-! ## One lexeme -/

/-- The side of a lexeme that is a parenthesis. -/
def Lexeme.paren? (l : Lexeme) : Option Side :=
  if l.lexClass = .symbol then l.text.head?.bind Side.ofChar? else none

/-- The parentheses among lexemes of which the first starts at octet offset `i`. -/
def parensFrom (i : Nat) : List Lexeme → List Seen
  | [] => []
  | l :: ls => (l.paren?.map (Seen.mk · i)).toList ++ parensFrom (i + utf8Size l.text) ls

theorem map_side_parensFrom (i : Nat) (ls : List Lexeme) :
    (parensFrom i ls).map Seen.side = ls.filterMap Lexeme.paren? := by
  induction ls generalizing i with
  | nil => rfl
  | cons l ls ih =>
    rw [parensFrom, List.map_append, ih, List.filterMap_cons]
    cases l.paren? <;> rfl

/-- The side of a token that is a parenthesis symbol. -/
def parenSymbol? (t : Token) : Option Side :=
  if t.kind = .symbol then
    if t.text = "(" then some .opening else if t.text = ")" then some .closing else none
  else none

theorem LexClass.Shape.ne_nil {k : LexClass} {t : List Char} (h : k.Shape t) : t ≠ [] := by
  rintro rfl
  cases k with
  | keyword =>
    obtain ⟨word, hword, -, hlen⟩ := h
    exact keywordLetters_ne_nil word hword (List.length_eq_zero_iff.1 hlen.symm)
  | aggregate =>
    obtain ⟨word, hword, -, hlen⟩ := h
    exact aggregateLetters_ne_nil word hword (List.length_eq_zero_iff.1 hlen.symm)
  | star => cases h
  | identifier =>
    obtain ⟨c, cs, hcs, -⟩ := h
    cases hcs
  | number => exact h.1 rfl
  | string =>
    obtain ⟨body, hbody, -⟩ := h
    cases hbody
  | operator => exact absurd (show [] ∈ operators from h) (by decide)
  | symbol =>
    obtain ⟨c, -, hc⟩ := h
    cases hc
  | blank => exact h.1 rfl

theorem isPlain_ne {c : Char} (h : isPlain c = true) : c ≠ '\'' ∧ c ≠ '\\' ∧ c ≠ '(' ∧ c ≠ ')' := by
  simpa [isPlain, and_assoc] using h

/-- No lexeme ends with a backslash. -/
theorem LexClass.Shape.getLast?_ne {k : LexClass} {t : List Char} (h : k.Shape t) :
    t.getLast? ≠ some '\\' := by
  by_cases hstring : k = .string
  · subst hstring
    obtain ⟨body, rfl, -⟩ := h
    simp [List.getLast?_cons]
  · by_cases hsymbol : k = .symbol
    · subst hsymbol
      obtain ⟨c, hc, rfl⟩ := h
      rw [List.getLast?_singleton]
      rintro ⟨rfl⟩
      exact absurd hc (by decide)
    · intro hlast
      have hmem := List.mem_of_getLast? hlast
      exact (isPlain_ne (h.plain hstring hsymbol _ hmem)).2.1 rfl

/-- The token of a lexeme is a parenthesis symbol exactly if the lexeme is one. -/
theorem Lexeme.token?_bind_parenSymbol? {l : Lexeme} (hl : l.lexClass.Shape l.text) (line : Nat) :
    (l.token? line).bind parenSymbol? = l.paren? := by
  obtain ⟨k, t⟩ := l
  cases k with
  | symbol =>
    obtain ⟨c, hc, rfl⟩ := hl
    have hsymbols : (symbols.all fun c => decide
        ((if String.ofList ([c].map upper) = "(" then some Side.opening
          else if String.ofList ([c].map upper) = ")" then some Side.closing else none) =
        Side.ofChar? c)) = true := by decide
    exact of_decide_eq_true (List.all_eq_true.1 hsymbols c hc)
  | _ => rfl

/-- The parentheses among the tokens are those among the lexemes. -/
theorem filterMap_parenSymbol?_ofLexemes {ls : List Lexeme}
    (hls : ∀ l ∈ ls, l.lexClass.Shape l.text) (line : Nat) :
    (ofLexemes line ls).filterMap parenSymbol? = ls.filterMap Lexeme.paren? := by
  induction ls generalizing line with
  | nil => rfl
  | cons l ls ih =>
    rw [ofLexemes, List.filterMap_append, ih fun m hm => hls m (List.mem_cons_of_mem _ hm),
      List.filterMap_cons, ← Lexeme.token?_bind_parenSymbol? (hls l List.mem_cons_self) line]
    cases l.token? line with
    | none => rfl
    | some t =>
      rw [Option.bind_some, Option.toList_some]
      cases ht : parenSymbol? t <;> simp [ht]

/-- The string literals among the tokens are those among the lexemes, text for text. -/
theorem forall_string_ofLexemes_iff {P : List Char → Prop} (ls : List Lexeme) (line : Nat) :
    (∀ t ∈ ofLexemes line ls, t.kind = .string → P t.text.toList) ↔
      ∀ l ∈ ls, l.lexClass = .string → P l.text := by
  induction ls generalizing line with
  | nil => simp [ofLexemes]
  | cons l ls ih =>
    have hhere : (∀ t ∈ (l.token? line).toList, t.kind = .string → P t.text.toList) ↔
        (l.lexClass = .string → P l.text) := by
      obtain ⟨k, text⟩ := l
      cases k with
      | string => simp [Lexeme.token?, LexClass.kind?, Lexeme.tokenText]
      | _ => simp [Lexeme.token?, LexClass.kind?]
    rw [ofLexemes, List.forall_mem_append, ih, hhere, List.forall_mem_cons]

end QueryLint.Token

namespace QueryLint.Paren

open QueryLint.Text QueryLint.Token

/-- After a lexeme, a quote is never taken for an escaped one. -/
theorem Scan.after_lexeme_previous (s : Scan) {l : Lexeme} (hl : l.lexClass.Shape l.text) :
    (s.after l.text).previous ≠ some '\\' := by
  rw [Scan.after_previous]
  cases hlast : l.text.getLast? with
  | none => exact absurd (List.getLast?_eq_none_iff.1 hlast) hl.ne_nil
  | some c =>
    rw [Option.some_or, ← hlast]
    exact hl.getLast?_ne

/-- One lexeme, read from outside strings: a scan is outside again after it, unless it is a
    literal closed right after a backslash, and sees it exactly if it is a parenthesis. -/
theorem Scan.after_lexeme {s : Scan} (hs : s.Outside) {l : Lexeme}
    (hl : l.lexClass.Shape l.text)
    (hclose : l.lexClass = .string → ¬ ['\\', '\''] <:+ l.text) (i : Nat) :
    (s.after l.text).Outside ∧ seenFrom s i l.text = (l.paren?.map (Seen.mk · i)).toList := by
  have hprevious := s.after_lexeme_previous hl
  obtain ⟨k, t⟩ := l
  -- Only literals lead into strings and only symbols are parentheses; all else is plain.
  by_cases hstring : k = .string
  · subst hstring
    obtain ⟨body, rfl, hbody⟩ := hl
    obtain ⟨hiff, hseen⟩ := Scan.after_literal hs hbody i
    have hout := mt hiff.1 (hclose rfl)
    refine ⟨⟨Bool.eq_false_iff.2 hout, hprevious⟩, ?_⟩
    rw [hseen]
    rfl
  · by_cases hsymbol : k = .symbol
    · subst hsymbol
      obtain ⟨c, hc, rfl⟩ := hl
      have hquote : c ≠ '\'' := by
        rintro rfl
        exact absurd hc (by decide)
      refine ⟨⟨?_, hprevious⟩, ?_⟩
      · rw [Scan.after_inString_of_no_quote (by simpa using hquote), hs.not_inString]
      · have hsees : s.sees c = true := by
          simp [Scan.sees, Scan.isDelimiter, hquote, hs.not_inString]
        rw [seenFrom_cons, hsees, if_pos rfl, seenFrom_nil, List.append_nil]
        rfl
    · have hplain := hl.plain hstring hsymbol
      refine ⟨⟨?_, hprevious⟩, ?_⟩
      · rw [Scan.after_inString_of_no_quote fun c hc => (isPlain_ne (hplain c hc)).1,
          hs.not_inString]
      · rw [seenFrom_of_no_paren]
        · simp [Lexeme.paren?, hsymbol]
        · intro c hc
          obtain ⟨-, -, hopen, hclosed⟩ := isPlain_ne (hplain c hc)
          simp [Side.ofChar?, hopen, hclosed]

/-! ## All lexemes of a text -/

/-- Read from outside strings, lexemes of which no literal is closed right after a backslash
    leave a scan outside, and it sees the parentheses among them. -/
theorem Scan.after_lexemes {s : Scan} (hs : s.Outside) {ls : List Lexeme}
    (hls : ∀ l ∈ ls, l.lexClass.Shape l.text)
    (hclose : ∀ l ∈ ls, l.lexClass = .string → ¬ ['\\', '\''] <:+ l.text) (i : Nat) :
    (s.after (textOf ls)).Outside ∧ seenFrom s i (textOf ls) = parensFrom i ls := by
  induction ls generalizing s i with
  | nil => exact ⟨hs, rfl⟩
  | cons l ls ih =>
    obtain ⟨hout, hseen⟩ := Scan.after_lexeme hs (hls l List.mem_cons_self)
      (hclose l List.mem_cons_self) i
    obtain ⟨houtRest, hseenRest⟩ := ih hout (fun m hm => hls m (List.mem_cons_of_mem _ hm))
      (fun m hm => hclose m (List.mem_cons_of_mem _ hm)) (i + utf8Size l.text)
    constructor
    · rw [textOf_cons, Scan.after_append]
      exact houtRest
    · rw [textOf_cons, seenFrom_append, hseen, hseenRest, parensFrom]

/-- Between lexemes, a quote is never taken for an escaped one. -/
theorem Scan.start_after_previous {ls : List Lexeme} (hls : ∀ l ∈ ls, l.lexClass.Shape l.text) :
    (Scan.start.after (textOf ls)).previous ≠ some '\\' := by
  rcases List.eq_nil_or_concat ls with rfl | ⟨front, l, rfl⟩
  · decide
  · rw [List.concat_eq_append, textOf_append, Scan.after_append]
    have hl := hls l (by simp)
    simpa using Scan.after_lexeme_previous (Scan.start.after (textOf front)) hl

/-- A scan of the text is outside strings where every token starts and where the text ends. -/
structure OutsideAtTokens (cs : List Char) : Prop where
  at_start : ∀ before l after, (cut cs).lexemes = before ++ l :: after →
    l.lexClass.kind? ≠ none → (Scan.start.after (textOf before)).inString = false
  at_end : (Scan.start.after cs).inString = false

theorem textOf_cut {cs : List Char} (hcut : (cut cs).rest = []) : textOf (cut cs).lexemes = cs := by
  have happend := cut_append cs
  rwa [hcut, List.append_nil] at happend

/-- A scan that is outside where tokens start is outside where blanks start as well. -/
theorem OutsideAtTokens.at_boundary {cs : List Char} (hcut : (cut cs).rest = [])
    (h : OutsideAtTokens cs) (after : List Lexeme) :
    ∀ before, (cut cs).lexemes = before ++ after →
      (Scan.start.after (textOf before)).inString = false := by
  have hshape := shape_of_lexed (lexed_cut cs)
  -- From the end of the text backwards: `at_end` is the start, a token settles itself, and
  -- a blank takes over what holds after it.
  induction after with
  | nil =>
    intro before hbefore
    rw [List.append_nil] at hbefore
    rw [← hbefore, textOf_cut hcut]
    exact h.at_end
  | cons l after ih =>
    intro before hbefore
    by_cases hblank : l.lexClass = .blank
    · have hafter := ih (before ++ [l]) (by simpa using hbefore)
      have hl := hshape l (by rw [hbefore]; simp)
      have hplain := hl.plain (by simp [hblank]) (by simp [hblank])
      rw [textOf_append, Scan.after_append, Scan.after_inString_of_no_quote] at hafter
      · exact hafter
      · intro c hc
        exact (isPlain_ne (hplain c (by simpa using hc))).1
    · refine h.at_start before l after hbefore ?_
      cases hk : l.lexClass <;> simp_all [LexClass.kind?]

/-- A scan that is outside on both sides of a literal did not find its closing quote right
    after a backslash. -/
theorem OutsideAtTokens.not_closed_escaped {cs : List Char} (hcut : (cut cs).rest = [])
    (h : OutsideAtTokens cs) :
    ∀ l ∈ (cut cs).lexemes, l.lexClass = .string → ¬ ['\\', '\''] <:+ l.text := by
  have hshape := shape_of_lexed (lexed_cut cs)
  intro l hl hstring
  obtain ⟨before, after, hsplit⟩ := List.append_of_mem hl
  -- Were its closing quote escaped to the scan, the scan would be in a string after it.
  have hstart := h.at_boundary hcut (l :: after) before hsplit
  have hend := h.at_boundary hcut after (before ++ [l]) (by simpa using hsplit)
  have hprevious : (Scan.start.after (textOf before)).previous ≠ some '\\' := by
    apply Scan.start_after_previous
    intro m hm
    exact hshape m (by rw [hsplit]; exact List.mem_append_left _ hm)
  have hl := hshape l hl
  rw [hstring] at hl
  obtain ⟨body, htext, hbody⟩ := hl
  rw [textOf_append, Scan.after_append, textOf_cons, textOf_nil, List.append_nil, htext] at hend
  rw [htext]
  intro hsuffix
  rw [(Scan.after_literal ⟨hstart, hprevious⟩ hbody 0).1.2 hsuffix] at hend
  cases hend

/-- Where no literal is closed right after a backslash, a scan is outside at every token. -/
theorem outsideAtTokens_of_not_closed_escaped {cs : List Char} (hcut : (cut cs).rest = [])
    (hclose : ∀ l ∈ (cut cs).lexemes, l.lexClass = .string → ¬ ['\\', '\''] <:+ l.text) :
    OutsideAtTokens cs := by
  have hshape := shape_of_lexed (lexed_cut cs)
  constructor
  · intro before l after hsplit _
    have hmem : ∀ m ∈ before, m ∈ (cut cs).lexemes := by
      intro m hm
      rw [hsplit]
      exact List.mem_append_left _ hm
    exact (Scan.after_lexemes Scan.start_outside (fun m hm => hshape m (hmem m hm))
      (fun m hm => hclose m (hmem m hm)) 0).1.not_inString
  · have hall := (Scan.after_lexemes Scan.start_outside hshape hclose 0).1.not_inString
    rwa [textOf_cut hcut] at hall

/-- For every text that has tokens, a scan of the raw text is outside strings where every
    token starts and where the text ends exactly if no string literal has a backslash right
    before its closing quote. The parentheses it sees are then those among the lexemes, each
    where its lexeme starts, and in order the parenthesis symbols among the tokens. -/
theorem string_trackers_agree {sql : String} {ts : List Token} (h : tokenize sql = .ok ts) :
    (OutsideAtTokens sql.toList ↔
      ∀ t ∈ ts, t.kind = .string → ¬ ['\\', '\''] <:+ t.text.toList) ∧
    (OutsideAtTokens sql.toList →
      seen sql.toList = parensFrom 0 (cut sql.toList).lexemes ∧
      (seen sql.toList).map Seen.side = ts.filterMap Token.parenSymbol?) := by
  obtain ⟨hcut, hts⟩ := tokenize_eq_ok_iff.1 h
  rw [hts, ← ofLexemes_one_eq,
    forall_string_ofLexemes_iff (P := fun t => ¬ ['\\', '\''] <:+ t)]
  have hshape := shape_of_lexed (lexed_cut sql.toList)
  refine ⟨⟨fun hout => hout.not_closed_escaped hcut,
    outsideAtTokens_of_not_closed_escaped hcut⟩, ?_⟩
  intro hout
  have hseen : seen sql.toList = parensFrom 0 (cut sql.toList).lexemes := by
    have hrun := (Scan.after_lexemes Scan.start_outside hshape
      (hout.not_closed_escaped hcut) 0).2
    rwa [textOf_cut hcut] at hrun
  refine ⟨hseen, ?_⟩
  rw [hseen, map_side_parensFrom, filterMap_parenSymbol?_ofLexemes hshape]

/-- A call with a parenthesis in a literal: the two outside it are seen, the one inside is
    not. -/
theorem string_trackers_agree_call :
    tokenize "f('(')" = .ok [⟨.identifier, "F", 1⟩, ⟨.symbol, "(", 1⟩, ⟨.string, "'('", 1⟩,
      ⟨.symbol, ")", 1⟩] ∧
    OutsideAtTokens "f('(')".toList ∧
    (seen "f('(')".toList).map Seen.side = [.opening, .closing] := by
  have htokens : tokenize "f('(')" = .ok [⟨.identifier, "F", 1⟩, ⟨.symbol, "(", 1⟩,
      ⟨.string, "'('", 1⟩, ⟨.symbol, ")", 1⟩] := by decide +kernel
  obtain ⟨hiff, hseen⟩ := string_trackers_agree htokens
  have hout := hiff.2 (by decide)
  exact ⟨htokens, hout, (hseen hout).2⟩

end QueryLint.Paren

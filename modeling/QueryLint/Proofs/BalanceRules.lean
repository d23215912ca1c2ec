/-
  QueryLint.Proofs.BalanceRules

  The structural rules for parentheses and quotes count characters of the raw text. For a text
  that has tokens, this says what they count: a parenthesis is a symbol token or stands inside a
  string literal, and a quote is one of the two around a literal or stands inside it, where a
  backslash escapes it. So the rules react to an odd number of escaped quotes, and to symbols and
  parentheses in literals that do not add up.

  Both counts add up lexeme by lexeme (`additive_textOf`); `Structure.balance_rules_in_tokens`
  draws them together.
-/
import QueryLint.Proofs.Stages
import QueryLint.Proofs.StringTracking
import Mathlib.Algebra.Ring.Parity

namespace QueryLint.Token

open QueryLint.Text QueryLint.Paren

/-! ## Inside string literals -/

/-- The text of a token without its first and its last character. -/
def inside (t : Token) : List Char :=
  t.text.toList.tail.dropLast

/-- What stands inside the string literals, one literal after another. -/
def literalContents (ts : List Token) : List Char :=
  (ts.filter fun t => t.kind = .string).flatMap inside

/-- How many symbols have this text. -/
def countSymbol (text : String) (ts : List Token) : Nat :=
  ts.countP fun t => t.kind = .symbol ∧ t.text = text

/-- A string literal: quotes around its inside, in which every quote has a backslash right before
    it that is not itself escaped. -/
structure IsLiteral (t : Token) : Prop where
  quoted : t.text.toList = '\'' :: (t.inside ++ ['\''])
  escaped : ∀ a b, t.inside = a ++ '\'' :: b → ∃ front, a = front ++ ['\\'] ∧ Pieces front

/-- A quote among string pieces belongs to a piece that begins with a backslash. -/
theorem Pieces.escaped_of_split {body : List Char} (h : Pieces body) :
    ∀ a b, body = a ++ '\'' :: b → ∃ front, a = front ++ ['\\'] ∧ Pieces front := by
  induction h with
  | nil =>
    intro a b hsplit
    cases a <;> cases hsplit
  | @plain c cs hquote hbackslash _ ih =>
    intro a b hsplit
    cases a with
    | nil => exact absurd (List.cons.inj hsplit).1 hquote
    | cons d a =>
      obtain ⟨rfl, hrest⟩ := List.cons.inj hsplit
      obtain ⟨front, rfl, hfront⟩ := ih a b hrest
      exact ⟨c :: front, rfl, .plain hquote hbackslash hfront⟩
  | @escaped c cs hbreak _ ih =>
    intro a b hsplit
    rcases a with _ | ⟨d, _ | ⟨e, a⟩⟩
    · cases (List.cons.inj hsplit).1
    · obtain ⟨rfl, -⟩ := List.cons.inj hsplit
      exact ⟨[], rfl, .nil⟩
    · obtain ⟨rfl, hrest⟩ := List.cons.inj hsplit
      obtain ⟨rfl, htail⟩ := List.cons.inj hrest
      obtain ⟨front, rfl, hfront⟩ := ih a b htail
      exact ⟨'\\' :: c :: front, rfl, .escaped hbreak hfront⟩

theorem inside_of_text {t : Token} {body : List Char}
    (h : t.text.toList = '\'' :: (body ++ ['\''])) : t.inside = body := by
  rw [inside, h, List.tail_cons, List.dropLast_concat]

theorem isLiteral_of_text {t : Token} {body : List Char} (hbody : Pieces body)
    (h : t.text.toList = '\'' :: (body ++ ['\''])) : t.IsLiteral := by
  have hinside := inside_of_text h
  refine ⟨hinside ▸ h, ?_⟩
  rw [hinside]
  exact hbody.escaped_of_split

/-! ## Counting lexeme by lexeme -/

/-- A count over characters and a count over tokens that both add up, and that agree on every
    lexeme, agree on the text. -/
theorem additive_textOf {f : List Char → Nat} {g : List Token → Nat} (hnil : f [] = g [])
    (hf : ∀ a b, f (a ++ b) = f a + f b) (hg : ∀ ts us, g (ts ++ us) = g ts + g us)
    {ls : List Lexeme} (hls : ∀ l ∈ ls, ∀ line, f l.text = g (l.token? line).toList) (line : Nat) :
    f (textOf ls) = g (ofLexemes line ls) := by
  induction ls generalizing line with
  | nil => exact hnil
  | cons l ls ih =>
    rw [textOf_cons, hf, ofLexemes, hg, hls l List.mem_cons_self,
      ih fun m hm => hls m (List.mem_cons_of_mem _ hm)]

theorem literalContents_append (ts us : List Token) :
    literalContents (ts ++ us) = literalContents ts ++ literalContents us := by
  rw [literalContents, List.filter_append, List.flatMap_append]
  rfl

theorem countSymbol_append (text : String) (ts us : List Token) :
    countSymbol text (ts ++ us) = countSymbol text ts + countSymbol text us :=
  List.countP_append

/-- A lexeme that is no string literal adds nothing to what stands inside literals. -/
theorem literalContents_token? {l : Lexeme} (h : l.lexClass ≠ .string) (line : Nat) :
    literalContents (l.token? line).toList = [] := by
  obtain ⟨k, text⟩ := l
  cases k with
  | string => exact absurd rfl h
  | _ => rfl

/-- A string literal adds its pieces to what stands inside literals. -/
theorem literalContents_literal {l : Lexeme} {body : List Char} (hclass : l.lexClass = .string)
    (htext : l.text = '\'' :: (body ++ ['\''])) (line : Nat) :
    literalContents (l.token? line).toList = body := by
  have htoken : l.token? line = some ⟨.string, String.ofList l.text, line⟩ := by
    rw [Lexeme.token?, Lexeme.tokenText, hclass]
    rfl
  have hinside : inside ⟨.string, String.ofList l.text, line⟩ = body :=
    inside_of_text (by rw [String.toList_ofList, htext])
  rw [htoken]
  exact (List.append_nil _).trans hinside

/-- A lexeme that is no symbol adds nothing to the symbols. -/
theorem countSymbol_token? {l : Lexeme} (h : l.lexClass ≠ .symbol) (text : String) (line : Nat) :
    countSymbol text (l.token? line).toList = 0 := by
  obtain ⟨k, t⟩ := l
  cases k with
  | symbol => exact absurd rfl h
  | _ => simp [countSymbol, Lexeme.token?, LexClass.kind?]

/-- Quotes and parentheses stand in string literals and symbols only. -/
theorem count_of_plain {l : Lexeme} (hl : l.lexClass.Shape l.text) (hstring : l.lexClass ≠ .string)
    (hsymbol : l.lexClass ≠ .symbol) {c : Char} (hc : isPlain c = false) : l.text.count c = 0 := by
  refine List.count_eq_zero.2 fun hmem => ?_
  rw [hl.plain hstring hsymbol c hmem] at hc
  cases hc

/-- The quotes of a lexeme are those inside it and, around a string literal, two more. -/
theorem count_quote_lexeme {l : Lexeme} (hl : l.lexClass.Shape l.text) (line : Nat) :
    l.text.count '\'' = (literalContents (l.token? line).toList).count '\'' +
      2 * (l.token? line).toList.countP fun t => t.kind = .string := by
  by_cases hstring : l.lexClass = .string
  · have hshape := hl
    rw [hstring] at hshape
    obtain ⟨body, htext, -⟩ := hshape
    have hone : (l.token? line).toList.countP (fun t => t.kind = .string) = 1 := by
      rw [Lexeme.token?, hstring]
      rfl
    rw [literalContents_literal hstring htext, hone, htext, List.count_cons, List.count_append]
    simp
  · have hnone : l.text.count '\'' = 0 := by
      by_cases hsymbol : l.lexClass = .symbol
      · rw [hsymbol] at hl
        obtain ⟨c, hc, htext⟩ := hl
        refine List.count_eq_zero.2 fun hmem => ?_
        -- No symbol is a quote.
        rw [htext, List.mem_singleton] at hmem
        subst hmem
        exact absurd hc (by decide)
      · exact count_of_plain hl hstring hsymbol rfl
    have hkind : (l.token? line).toList.countP (fun t => t.kind = .string) = 0 := by
      obtain ⟨k, text⟩ := l
      cases k with
      | string => exact absurd rfl hstring
      | _ => simp [Lexeme.token?, LexClass.kind?]
    rw [hnone, literalContents_token? hstring, hkind]
    rfl

/-- A parenthesis of a lexeme is the lexeme itself, a symbol, or stands inside a literal. -/
theorem count_paren_lexeme (side : Side) {l : Lexeme} (hl : l.lexClass.Shape l.text) (line : Nat) :
    l.text.count side.char = countSymbol (String.ofList [side.char]) (l.token? line).toList +
      (literalContents (l.token? line).toList).count side.char := by
  by_cases hstring : l.lexClass = .string
  · have hsymbol : l.lexClass ≠ .symbol := by simp [hstring]
    rw [hstring] at hl
    obtain ⟨body, htext, -⟩ := hl
    have hquote : '\'' ≠ side.char := by cases side <;> decide
    rw [literalContents_literal hstring htext, countSymbol_token? hsymbol, htext, List.count_cons,
      List.count_append]
    simp [hquote]
  · rw [literalContents_token? hstring, List.count_nil, Nat.add_zero]
    by_cases hsymbol : l.lexClass = .symbol
    · rw [hsymbol] at hl
      obtain ⟨c, hc, htext⟩ := hl
      -- Symbols have no case, so the text of the token is the symbol.
      have hupper : (symbols.all fun c => decide (upper c = c)) = true := by decide
      have hc := of_decide_eq_true (List.all_eq_true.1 hupper c hc)
      have htoken : l.token? line = some ⟨.symbol, String.ofList [c], line⟩ := by
        rw [Lexeme.token?, Lexeme.tokenText, hsymbol, htext]
        simp [LexClass.kind?, hc]
      rw [htoken, htext, Option.toList_some, countSymbol, List.count_singleton]
      simp
    · have hspecial : isPlain side.char = false := by cases side <;> rfl
      rw [count_of_plain hl hstring hsymbol hspecial, countSymbol_token? hsymbol]

/-! ## Counting over a text -/

/-- A text that has tokens is lexemes to its end, each of the shape of its class. -/
theorem exists_lexemes_of_tokenize {sql : String} {ts : List Token} (h : tokenize sql = .ok ts) :
    ∃ ls, sql.toList = textOf ls ∧ (∀ l ∈ ls, l.lexClass.Shape l.text) ∧ ts = ofLexemes 1 ls := by
  obtain ⟨hcut, hts⟩ := tokenize_eq_ok_iff.1 h
  refine ⟨(cut sql.toList).lexemes, (textOf_cut hcut).symm, shape_of_lexed (lexed_cut _), ?_⟩
  rw [hts, ofLexemes_one_eq]

/-- The quotes of a text that has tokens: those inside string literals, and two for each. -/
theorem count_quote_tokens {sql : String} {ts : List Token} (h : tokenize sql = .ok ts) :
    sql.toList.count '\'' = (literalContents ts).count '\'' +
      2 * ts.countP fun t => t.kind = .string := by
  obtain ⟨ls, htext, hshape, rfl⟩ := exists_lexemes_of_tokenize h
  rw [htext]
  refine additive_textOf (f := List.count '\'') (g := fun ts => (literalContents ts).count '\'' +
    2 * ts.countP fun t => t.kind = .string) rfl (fun a b => List.count_append) ?_ ?_ 1
  · intro ts us
    rw [literalContents_append, List.count_append, List.countP_append]
    omega
  · intro l hl line
    exact count_quote_lexeme (hshape l hl) line

/-- The parentheses of a text that has tokens: the symbols, and those inside string literals. -/
theorem count_paren_tokens (side : Side) {sql : String} {ts : List Token}
    (h : tokenize sql = .ok ts) :
    sql.toList.count side.char =
      countSymbol (String.ofList [side.char]) ts + (literalContents ts).count side.char := by
  obtain ⟨ls, htext, hshape, rfl⟩ := exists_lexemes_of_tokenize h
  rw [htext]
  refine additive_textOf (f := List.count side.char) (g := fun ts =>
    countSymbol (String.ofList [side.char]) ts + (literalContents ts).count side.char)
    rfl (fun a b => List.count_append) ?_ ?_ 1
  · intro ts us
    rw [literalContents_append, List.count_append, countSymbol_append]
    omega
  · intro l hl line
    exact count_paren_lexeme side (hshape l hl) line

/-- Every token of the class of string literals is one. -/
theorem isLiteral_of_tokenize {sql : String} {ts : List Token} (h : tokenize sql = .ok ts) :
    ∀ t ∈ ts, t.kind = .string → t.IsLiteral := by
  obtain ⟨ls, -, hshape, rfl⟩ := exists_lexemes_of_tokenize h
  have hliterals := (forall_string_ofLexemes_iff (P := LexClass.string.Shape) ls 1).2
    fun l hl hclass => hclass ▸ hshape l hl
  intro t ht hkind
  obtain ⟨body, htext, hbody⟩ := hliterals t ht hkind
  exact isLiteral_of_text hbody htext

end QueryLint.Token

namespace QueryLint.Structure

open QueryLint.Token QueryLint.Paren

/-! ## Reports -/

theorem unmatchedParens_mem_iff {cs : List Char} {limit : Nat} {vs : List Violation}
    (h : violations cs limit = .ok vs) : .unmatchedParens ∈ vs ↔ cs.count '(' ≠ cs.count ')' := by
  obtain ⟨depth, hdepth⟩ := selectDepth_ok cs
  rw [violations, hdepth] at h
  cases h
  simp [List.mem_ite_nil_left, parensMatch]

theorem oddQuotes_mem_iff {cs : List Char} {limit : Nat} {vs : List Violation}
    (h : violations cs limit = .ok vs) : .oddQuotes ∈ vs ↔ Odd (cs.count '\'') := by
  obtain ⟨depth, hdepth⟩ := selectDepth_ok cs
  rw [violations, hdepth] at h
  cases h
  simp [List.mem_ite_nil_left, quotesPair, Nat.odd_iff]

/-- What the balance rules react to, in tokens. In a text that has tokens, every quote inside a
    string literal is escaped by a backslash. Whatever nesting is allowed, an unclosed string is
    reported exactly if the number of these quotes is odd, and unmatched parentheses exactly if
    the symbols that open, with the opening parentheses inside literals, are not as many as those
    that close, with the closing ones inside literals. -/
theorem balance_rules_in_tokens {sql : String} {ts : List Token} (h : tokenize sql = .ok ts)
    (limit : Nat) :
    (∀ t ∈ ts, t.kind = .string → t.IsLiteral) ∧
    ∃ ds, diagnostics sql limit = .ok ds ∧
      ((∃ d ∈ ds, d.issue = "Unclosed string literal") ↔ Odd ((literalContents ts).count '\'')) ∧
      ((∃ d ∈ ds, d.issue = "Unmatched parentheses") ↔
        countSymbol "(" ts + (literalContents ts).count '(' ≠
          countSymbol ")" ts + (literalContents ts).count ')') := by
  obtain ⟨vs, hvs, hds⟩ := diagnostics_ok sql limit
  refine ⟨isLiteral_of_tokenize h, _, hds, ?_, ?_⟩
  · have hlabel : ∀ w : Violation, w.diagnostic.issue = Violation.oddQuotes.diagnostic.issue →
        w = .oddQuotes := by
      intro w
      cases w <;> simp [Violation.diagnostic, Diagnostic.onFirstLine, Violation.issue]
    refine (exists_issue_iff hlabel vs).trans ?_
    -- The quotes around literals come in pairs.
    rw [oddQuotes_mem_iff hvs, count_quote_tokens h, Nat.odd_add, iff_true_right (even_two_mul _)]
  · have hlabel : ∀ w : Violation,
        w.diagnostic.issue = Violation.unmatchedParens.diagnostic.issue → w = .unmatchedParens := by
      intro w
      cases w <;> simp [Violation.diagnostic, Diagnostic.onFirstLine, Violation.issue]
    have hopening := count_paren_tokens .opening h
    have hclosing := count_paren_tokens .closing h
    refine (exists_issue_iff hlabel vs).trans ?_
    rw [unmatchedParens_mem_iff hvs]
    exact not_congr (Eq.congr hopening hclosing)

/-- A literal in parentheses that holds an escaped quote and a parenthesis breaks both rules. -/
theorem balance_rules_in_tokens_escaped :
    let sql := "x = ('it\\'s (')"
    let literal : Token := ⟨.string, "'it\\'s ('", 1⟩
    tokenize sql = .ok [⟨.identifier, "X", 1⟩, ⟨.operator, "=", 1⟩, ⟨.symbol, "(", 1⟩, literal,
      ⟨.symbol, ")", 1⟩] ∧
    literal.IsLiteral ∧
    ∃ ds, diagnostics sql 2 = .ok ds ∧ (∃ d ∈ ds, d.issue = "Unclosed string literal") ∧
      ∃ d ∈ ds, d.issue = "Unmatched parentheses" := by
  intro sql literal
  have htokens : tokenize sql = .ok [⟨.identifier, "X", 1⟩, ⟨.operator, "=", 1⟩,
      ⟨.symbol, "(", 1⟩, literal, ⟨.symbol, ")", 1⟩] := by decide +kernel
  obtain ⟨hliterals, ds, hds, hquotes, hparens⟩ := balance_rules_in_tokens htokens 2
  exact ⟨htokens, hliterals literal (by simp) rfl, ds, hds, hquotes.2 (by decide),
    hparens.2 (by decide)⟩

end QueryLint.Structure

/-
  QueryLint.Proofs.Verdict

  What the verdict on a query depends on. The checks of raw text depend on the outline of the
  query alone. The checks of tokens only ask whether a token is one of their words, and none
  of these begins with a quote, so a token whose text does might as well be any other such
  token: they depend on the readings of the tokens, and on the text of the first.

  `Checker.check_congr` puts the two together for two queries that have tokens.
-/
import QueryLint.Checker
import QueryLint.Dialect.Registry
import QueryLint.Proofs.OutlineChecks
import QueryLint.Proofs.Stages

namespace QueryLint

namespace Token

/-! ## Readings -/

/-- Whether a text begins with a quote. -/
def isQuoted (text : String) : Bool :=
  text.toList.head? == some '\''

/-- What the checks read of a token: its text, or a mere quote if it begins with one. -/
def reading (t : Token) : String :=
  if isQuoted t.text then "'" else t.text

/-- A token of which no more is left than what the checks read of it. -/
def bare (t : Token) : Token :=
  ⟨.symbol, t.reading, 1⟩

theorem is_bare {word : String} (hword : isQuoted word = false) (t : Token) :
    t.bare.is word = t.is word := by
  rw [is, is, bare, reading]
  cases ht : isQuoted t.text with
  | false => rfl
  | true =>
    -- Neither text is the word, since both begin with a quote and the word does not.
    have hne : ∀ text, isQuoted text = true → (text == word) = false := by
      intro text htext
      rw [beq_eq_false_iff_ne]
      rintro rfl
      rw [htext] at hword
      cases hword
    rw [if_pos rfl, hne "'" (by decide), hne t.text ht]

theorem is_comp_bare {word : String} (hword : isQuoted word = false) :
    (fun t : Token => t.is word) ∘ bare = fun t => t.is word :=
  funext (is_bare hword)

theorem contains_bare {words : List String} (hwords : words.all (!isQuoted ·) = true) (t : Token) :
    words.contains t.bare.text = words.contains t.text := by
  induction words with
  | nil => rfl
  | cons word words ih =>
    rw [List.all_cons, Bool.and_eq_true, Bool.not_eq_true'] at hwords
    rw [List.contains_cons, List.contains_cons, ih hwords.2]
    exact congrArg (· || words.contains t.text) (is_bare hwords.1 t)

/-- A token that is a word reads as its text. -/
theorem bare_text_of_contains {words : List String} (hwords : words.all (!isQuoted ·) = true)
    {t : Token} (ht : words.contains t.text = true) : t.bare.text = t.text := by
  have hword := List.all_eq_true.1 hwords t.text (List.contains_iff_mem.1 ht)
  rw [Bool.not_eq_true'] at hword
  rw [bare, reading, hword]
  rfl

/-- What can be read off bare tokens is the same for tokens that read the same. -/
theorem eq_of_bare {α : Type} {f : List Token → α} (hf : ∀ ts, f (ts.map bare) = f ts)
    {ts us : List Token} (h : ts.map bare = us.map bare) : f ts = f us := by
  rw [← hf ts, h, hf us]

end Token

open QueryLint.Token

/-! ## Clauses -/

namespace Clause

theorem find?_bare {word : String} (hword : isQuoted word = false) (ts : List Token) :
    find? (ts.map bare) word = find? ts word := by
  rw [find?, find?, List.findIdx?_map, is_comp_bare hword]

theorem hasAfter_bare (ts : List Token) (i : Nat) : hasAfter (ts.map bare) i = hasAfter ts i := by
  rw [hasAfter, hasAfter, List.length_map]

theorem isAt_bare {word : String} (hword : isQuoted word = false) (ts : List Token) (i : Nat) :
    isAt (ts.map bare) i word = isAt ts i word := by
  rw [isAt, isAt, List.getElem?_map]
  cases ts[i]? with
  | none => rfl
  | some t => exact is_bare hword t

theorem closeAhead?_bare (depth : Nat) (ts : List Token) :
    closeAhead? depth (ts.map bare) = closeAhead? depth ts := by
  induction ts generalizing depth with
  | nil => rfl
  | cons t ts ih =>
    have hopen : t.bare.is "(" = t.is "(" := is_bare (by decide) t
    have hclose : t.bare.is ")" = t.is ")" := is_bare (by decide) t
    simp only [List.map_cons, closeAhead?, hopen, hclose, ih]

theorem closingParen?_bare (ts : List Token) (i : Nat) :
    closingParen? (ts.map bare) i = closingParen? ts i := by
  rw [closingParen?, closingParen?, ← List.map_drop, closeAhead?_bare]

end Clause

open QueryLint.Clause

/-! ## The clause grammar -/

namespace Grammar

theorem whereViolations_bare (ts : List Token) :
    whereViolations (ts.map bare) = whereViolations ts := by
  simp only [whereViolations, find?_bare (show isQuoted "WHERE" = false by decide), hasAfter_bare]

theorem selectViolations_bare (ts : List Token) :
    selectViolations (ts.map bare) = selectViolations ts := by
  simp (disch := decide) only [selectViolations, fromViolations, groupViolations, havingViolations,
    orderViolations, limitViolations, whereViolations_bare, find?_bare, isAt_bare, hasAfter_bare]

theorem insertViolations_bare (ts : List Token) :
    insertViolations (ts.map bare) = insertViolations ts := by
  simp (disch := decide) only [insertViolations, insertAsking, columnsAsking, valuesIndex?,
    find?_bare, isAt_bare, hasAfter_bare, closingParen?_bare]

theorem updateViolations_bare (ts : List Token) :
    updateViolations (ts.map bare) = updateViolations ts := by
  simp (disch := decide) only [updateViolations, whereViolations_bare, find?_bare, hasAfter_bare]

theorem deleteViolations_bare (ts : List Token) :
    deleteViolations (ts.map bare) = deleteViolations ts := by
  simp (disch := decide) only [deleteViolations, whereViolations_bare, find?_bare, hasAfter_bare]

theorem ddlViolations_bare (kind : Statement.Kind) (ts : List Token) :
    ddlViolations kind (ts.map bare) = ddlViolations kind ts := by
  simp (disch := decide) only [ddlViolations, ddlAsking, definitionAsking, find?_bare, isAt_bare,
    hasAfter_bare, closingParen?_bare]

/-- The clause grammar depends on the readings of the tokens and on the text of the first. -/
theorem violations_congr {ts us : List Token} (h : ts.map bare = us.map bare)
    (hfirst : Statement.leadingText? ts = Statement.leadingText? us) :
    Grammar.violations ts = Grammar.violations us := by
  have hclassify : Statement.classify? ts = Statement.classify? us := by
    rw [Statement.classify?, Statement.classify?, hfirst]
  rw [Grammar.violations, Grammar.violations, hclassify, eq_of_bare selectViolations_bare h,
    eq_of_bare insertViolations_bare h, eq_of_bare updateViolations_bare h,
    eq_of_bare deleteViolations_bare h]
  simp only [eq_of_bare (ddlViolations_bare _) h]

end Grammar

/-! ## The hooks of the built-in dialects -/

namespace Dialect

theorem Ansi.clauseViolations_bare (ts : List Token) :
    Ansi.clauseViolations (ts.map bare) = Ansi.clauseViolations ts := by
  have hwords : Ansi.forbidden.all (!isQuoted ·) = true := by decide
  rw [Ansi.clauseViolations, Ansi.clauseViolations]
  induction ts with
  | nil => rfl
  | cons t ts ih =>
    rw [List.map_cons, List.filter_cons, List.filter_cons, contains_bare hwords]
    split
    · rename_i ht
      rw [List.map_cons, List.map_cons, bare_text_of_contains hwords ht, ih]
    · exact ih

theorem MySql.clauseViolations_bare (ts : List Token) :
    MySql.clauseViolations (ts.map bare) = MySql.clauseViolations ts := by
  simp (disch := decide) only [MySql.clauseViolations, find?_bare, List.length_map]

/-- A hook of a built-in dialect depends on the statement and the readings of the tokens. -/
theorem hook_congr {d : Dialect} (hd : d ∈ builtin) (point : HookPoint)
    (statement : Statement) {ts us : List Token} (h : ts.map bare = us.map bare) :
    d.hook point statement ts = d.hook point statement us := by
  simp only [builtin, List.mem_cons, List.not_mem_nil, or_false] at hd
  rcases hd with rfl | rfl
  · cases point with
    | statement => rfl
    | clauses => simp only [hook, ansi, eq_of_bare Ansi.clauseViolations_bare h]
    | ddl => rfl
  · cases point with
    | statement => rfl
    | clauses => simp only [hook, mysql, eq_of_bare MySql.clauseViolations_bare h]
    | ddl => rfl

theorem diagnostics_congr {d : Dialect} (hd : d ∈ builtin) (statement : Statement)
    {ts us : List Token} (h : ts.map bare = us.map bare) :
    d.diagnostics statement ts = d.diagnostics statement us := by
  have hstatement : d.statementHook statement ts = d.statementHook statement us :=
    hook_congr hd .statement statement h
  have hclauses : d.clausesHook statement ts = d.clausesHook statement us :=
    hook_congr hd .clauses statement h
  have hddl : d.ddlHook statement ts = d.ddlHook statement us := hook_congr hd .ddl statement h
  rw [diagnostics, diagnostics, hstatement, hclauses, hddl]

end Dialect

/-! ## The extended checks -/

namespace Cte

theorem isName_bare (ts : List Token) : isName (ts.map bare) = isName ts := by
  match ts with
  | [] => rfl
  | [t] => exact congrArg (!·) (is_bare (by decide) t)
  | _ :: _ :: _ => rfl

theorem violations_bare (statement : Statement) (ts : List Token) :
    violations statement (ts.map bare) = violations statement ts := by
  simp (disch := decide) only [violations, find?_bare, isAt_bare]
  split
  · rfl
  · cases find? ts "AS" with
    | none => rfl
    | some i =>
      simp only [nameTokens]
      by_cases hi : i = 0
      · rw [if_pos hi, if_pos hi]
      · rw [if_neg hi, if_neg hi, ← List.map_take, ← List.map_drop]
        simp only [bind, Except.bind, isName_bare]

end Cte

namespace SetOperation

theorem isQuoted_keyword (op : SetOperation) : isQuoted op.keyword = false := by
  cases op <;> decide

theorem dropQuantifier_bare (ts : List Token) :
    dropQuantifier (ts.map bare) = (dropQuantifier ts).map bare := by
  cases ts with
  | nil => rfl
  | cons t ts =>
    simp (disch := decide) only [List.map_cons, dropQuantifier, is_bare]
    split <;> rfl

theorem operandIsSelect_bare (ts : List Token) :
    operandIsSelect (ts.map bare) = operandIsSelect ts := by
  rw [operandIsSelect, operandIsSelect, dropQuantifier_bare, List.dropWhile_map,
    is_comp_bare (by decide), List.head?_map]
  cases ((dropQuantifier ts).dropWhile (·.is "(")).head? with
  | none => rfl
  | some t => exact is_bare (by decide) t

theorem operands_bare (op : SetOperation) (ts : List Token) :
    operands op (ts.map bare) = (operands op ts).map (List.map bare) := by
  induction ts with
  | nil => rfl
  | cons t ts ih =>
    rw [List.map_cons, operands, operands, is_bare (isQuoted_keyword op), ih]
    split <;> rfl

theorem violationsOf_bare (ts : List Token) (op : SetOperation) :
    violationsOf (ts.map bare) op = violationsOf ts op := by
  simp only [violationsOf, operands_bare, List.length_map, List.filter_map, List.map_map]
  have hfilter : (fun operand => !operandIsSelect operand) ∘ List.map bare =
      fun operand => !operandIsSelect operand := by
    funext operand
    rw [Function.comp_apply, operandIsSelect_bare]
  rw [hfilter]
  rfl

theorem violations_bare (statement : Statement) (ts : List Token) :
    violations statement (ts.map bare) = violations statement ts := by
  simp only [violations, funext (violationsOf_bare ts)]

end SetOperation

/-- The extended checks depend on the outline of a query, the statement and the readings of
    the tokens. -/
theorem Extended.diagnostics_congr {a b : String}
    (houtline : Text.outline a.toList = Text.outline b.toList) (statement : Statement)
    {ts us : List Token} (h : ts.map bare = us.map bare) :
    Extended.diagnostics a statement ts = Extended.diagnostics b statement us := by
  rw [Extended.diagnostics, Extended.diagnostics, Subquery.diagnostics_outline,
    Subquery.diagnostics_outline, houtline, Cte.diagnostics, Cte.diagnostics,
    eq_of_bare (Cte.violations_bare statement) h, SetOperation.diagnostics,
    SetOperation.diagnostics, eq_of_bare (SetOperation.violations_bare statement) h]

/-! ## Whole checks -/

namespace Checker

/-- Two queries with the same outline get the same verdict of a built-in dialect if their
    tokens read the same and the first ones have the same text. -/
theorem check_congr {c : Checker} (hd : c.dialect ∈ Dialect.builtin) {a b : String}
    (houtline : Text.outline a.toList = Text.outline b.toList) {ts us : List Token}
    (ha : tokenize a = .ok ts) (hb : tokenize b = .ok us) (h : ts.map bare = us.map bare)
    (hfirst : Statement.leadingText? ts = Statement.leadingText? us) : c.check a = c.check b := by
  have hclassify : Statement.classify? ts = Statement.classify? us := by
    rw [Statement.classify?, Statement.classify?, hfirst]
  have hstages : ∀ statement, c.stages a statement ts = c.stages b statement us := by
    intro statement
    rw [stages, stages, Structure.diagnostics_congr houtline, Grammar.diagnostics,
      Grammar.diagnostics, Grammar.violations_congr h hfirst,
      Dialect.diagnostics_congr hd statement h, Extended.diagnostics_congr houtline statement h]
  simp only [check, ha, hb, hclassify, hstages]

end Checker

end QueryLint

/-
  QueryLint.Proofs.Outcome

  What a check of a query comes to. There are four outcomes, told apart by what is
  reported: a lexical error, an empty query, a crash of the dialect, or the joined
  diagnostics of all stages. Exactly one of them is reported, it is the one that
  arises from the tokens and the hooks of the dialect, and the extended checks only
  add to the last.
-/
import QueryLint.Proofs.Lexing
import QueryLint.Proofs.Stages

namespace QueryLint

open QueryLint.Token

/-- The line of a lexical error is a line of the text. -/
theorem Token.line_of_lexError {sql : String} {e : LexError} (h : tokenize sql = .error e) :
    1 ≤ e.line ∧ e.line ≤ 1 + lineBreaks sql.toList := by
  obtain ⟨r, hrest, hline⟩ := tokenize_eq_error_iff.1 h
  have htext : textOf (cut sql.toList).lexemes ++ (cut sql.toList).rest = sql.toList :=
    cut_append sql.toList
  have hbreaks := lineBreaks_append (textOf (cut sql.toList).lexemes) (cut sql.toList).rest
  rw [htext] at hbreaks
  omega

/-- What a check of a query can come to. -/
inductive Outcome where
  /-- The text is not tokens to its end. -/
  | lexical
  /-- The text has no token. -/
  | empty
  /-- A hook of the dialect breaks down. -/
  | crashed
  /-- Every stage answers. -/
  | staged
  deriving DecidableEq, Repr

namespace Outcome

/-! ## Outcomes by their cause and by their report -/

/-- When an outcome arises for a text and a dialect. -/
def Arises (d : Dialect) (sql : String) : Outcome → Prop
  | lexical => ∃ e, tokenize sql = .error e
  | empty => tokenize sql = .ok []
  | crashed => ∃ t ts point cause, tokenize sql = .ok (t :: ts) ∧
      d.hook point (.ofKeyword t.text) (t :: ts) = .error cause
  | staged => ∃ t ts, tokenize sql = .ok (t :: ts) ∧
      ∀ point, ∃ ds, d.hook point (.ofKeyword t.text) (t :: ts) = .ok ds

/-- What is reported for an outcome. All but the last are told by the report alone. -/
def Reports (c : Checker) (sql : String) (ds : List Diagnostic) : Outcome → Prop
  | lexical => ∃ line explanation, ds = [⟨line, "Syntax Error", explanation, .lexical⟩] ∧
      1 ≤ line ∧ line ≤ 1 + sql.toList.count '\n'
  | empty => ds = [⟨1, "Empty query", "No SQL statement found", .grammar⟩]
  | crashed => ∃ explanation, ds = [⟨1, "Fatal error", explanation, .fatal⟩]
  | staged => ∃ t ts S G D E, tokenize sql = .ok (t :: ts) ∧
      c.Parts sql (.ofKeyword t.text) (t :: ts) S G D E ∧ ds = S ++ G ++ D ++ E

/-- The outcome read off a report. -/
def ofReport (ds : List Diagnostic) : Outcome :=
  if ds.any (·.category = .lexical) then lexical
  else if ds.any (·.category = .fatal) then crashed
  else if emptyQuery ∈ ds then empty
  else staged

/-- A report tells its outcome. -/
theorem Reports.ofReport_eq {c : Checker} {sql : String} {ds : List Diagnostic} {o : Outcome}
    (h : o.Reports c sql ds) : ofReport ds = o := by
  cases o with
  | lexical =>
    obtain ⟨line, explanation, rfl, -⟩ := h
    rfl
  | empty =>
    cases h
    decide
  | crashed =>
    obtain ⟨explanation, rfl⟩ := h
    rfl
  | staged =>
    obtain ⟨t, ts, S, G, D, E, -, hparts, rfl⟩ := h
    -- None of the three signs of another outcome is in a report of all stages.
    have hlexical : ¬ (S ++ G ++ D ++ E).any (·.category = .lexical) := by
      rw [List.any_eq_true]
      rintro ⟨x, hx, hcategory⟩
      exact (hparts.category_ne x hx).1 (of_decide_eq_true hcategory)
    have hfatal : ¬ (S ++ G ++ D ++ E).any (·.category = .fatal) := by
      rw [List.any_eq_true]
      rintro ⟨x, hx, hcategory⟩
      exact (hparts.category_ne x hx).2 (of_decide_eq_true hcategory)
    rw [ofReport, if_neg hlexical, if_neg hfatal, if_neg (hparts.emptyQuery_not_mem rfl)]

theorem Reports.unique {c : Checker} {sql : String} {ds : List Diagnostic} {o o' : Outcome}
    (h : o.Reports c sql ds) (h' : o'.Reports c sql ds) : o = o' :=
  h.ofReport_eq.symm.trans h'.ofReport_eq

/-- Some outcome arises for every text. -/
theorem exists_arises (d : Dialect) (sql : String) : ∃ o : Outcome, o.Arises d sql := by
  cases htokens : tokenize sql with
  | error e => exact ⟨lexical, e, htokens⟩
  | ok ts =>
    cases ts with
    | nil => exact ⟨empty, htokens⟩
    | cons t ts =>
      rcases d.diagnostics_cases (.ofKeyword t.text) (t :: ts) with
        ⟨as, bs, cs, has, hbs, hcs, -⟩ | ⟨point, cause, hcause, -⟩
      · refine ⟨staged, t, ts, htokens, ?_⟩
        intro point
        cases point with
        | statement => exact ⟨as, has⟩
        | clauses => exact ⟨bs, hbs⟩
        | ddl => exact ⟨cs, hcs⟩
      · exact ⟨crashed, t, ts, point, cause, htokens, hcause⟩

end Outcome

namespace Checker

/-! ## The report of each outcome -/

theorem diagnose_lexical (c : Checker) {sql : String} {e : LexError}
    (h : tokenize sql = .error e) : c.diagnose sql = [(Failure.lexical e).diagnostic] :=
  diagnose_of_error (c.check_of_lexError h)

theorem diagnose_empty (c : Checker) {sql : String} (h : tokenize sql = .ok []) :
    c.diagnose sql = [emptyQuery] :=
  diagnose_of_ok (c.check_of_no_token h)

theorem diagnose_crashed {c : Checker} (hd : c.dialect.Offered) {sql : String} {t : Token}
    {ts : List Token} (h : tokenize sql = .ok (t :: ts)) {point : Dialect.HookPoint}
    {cause : Crash} (hhook : c.dialect.hook point (.ofKeyword t.text) (t :: ts) = .error cause) :
    c.diagnose sql = [(Failure.crash cause).diagnostic] := by
  apply diagnose_of_error
  rw [c.check_of_tokens h (Statement.classify?_cons t ts),
    stages_error hd sql (Statement.classify?_cons t ts) hhook]
  rfl

theorem diagnose_of_stages {c : Checker} {sql : String} {t : Token} {ts : List Token}
    {ds : List Diagnostic} (h : tokenize sql = .ok (t :: ts))
    (hstages : c.stages sql (.ofKeyword t.text) (t :: ts) = .ok ds) : c.diagnose sql = ds := by
  apply diagnose_of_ok
  rw [c.check_of_tokens h (Statement.classify?_cons t ts), hstages]
  rfl

/-- The outcome that arises is reported. -/
theorem reports_of_arises {c : Checker} (hd : c.dialect.Offered) {sql : String} {o : Outcome}
    (h : o.Arises c.dialect sql) : o.Reports c sql (c.diagnose sql) := by
  cases o with
  | lexical =>
    obtain ⟨e, he⟩ := h
    exact ⟨e.line, e.message, c.diagnose_lexical he, line_of_lexError he⟩
  | empty => exact c.diagnose_empty h
  | crashed =>
    obtain ⟨t, ts, point, cause, htokens, hhook⟩ := h
    exact ⟨cause.message, diagnose_crashed hd htokens hhook⟩
  | staged =>
    obtain ⟨t, ts, htokens, hhooks⟩ := h
    obtain ⟨S, G, D, E, hparts, hstages⟩ :=
      stages_ok hd sql (Statement.classify?_cons t ts) hhooks
    exact ⟨t, ts, S, G, D, E, htokens, hparts, diagnose_of_stages htokens hstages⟩

/-- The outcome that is reported is the one that arises. -/
theorem reports_iff_arises {c : Checker} (hd : c.dialect.Offered) (sql : String) (o : Outcome) :
    o.Reports c sql (c.diagnose sql) ↔ o.Arises c.dialect sql := by
  constructor
  · intro h
    -- Some outcome arises and is then reported, so it is this one.
    obtain ⟨o', ho'⟩ := Outcome.exists_arises c.dialect sql
    rw [h.unique (reports_of_arises hd ho')]
    exact ho'
  · exact reports_of_arises hd

/-! ## The extended checks -/

/-- The extended checks add their diagnostics to those of the other stages. -/
theorem stages_extended (d : Dialect) (sql : String) {statement : Statement} {ts : List Token}
    (hstatement : Statement.classify? ts = some statement) {D : List Diagnostic}
    (hdialect : d.diagnostics statement ts = .ok D) :
    ∃ others E, AllOf .grammar E ∧ (Checker.mk d false).stages sql statement ts = .ok others ∧
      (Checker.mk d true).stages sql statement ts = .ok (others ++ E) := by
  obtain ⟨vs, -, hstructure⟩ := Structure.diagnostics_ok sql d.maxDepth
  obtain ⟨E, hextended, hall, -⟩ := Extended.diagnostics_ok sql hstatement
  refine ⟨vs.map Structure.Violation.diagnostic ++ Grammar.diagnostics ts ++ D, E, hall, ?_, ?_⟩
  · rw [stages_eq ⟨d, false⟩ sql hstructure hextended, hdialect]
    simp [Except.map]
  · rw [stages_eq ⟨d, true⟩ sql hstructure hextended, hdialect]
    simp [Except.map]

/-- Turning the extended checks on appends to the report where every stage answers, and
    changes nothing otherwise. -/
theorem diagnose_extended {d : Dialect} (hd : d.Offered) (sql : String) :
    ∃ E, (Checker.mk d true).diagnose sql = (Checker.mk d false).diagnose sql ++ E ∧
      AllOf .grammar E ∧ (¬ Outcome.staged.Arises d sql → E = []) := by
  obtain ⟨o, ho⟩ := Outcome.exists_arises d sql
  cases o with
  | lexical =>
    obtain ⟨e, he⟩ := ho
    refine ⟨[], ?_, AllOf.nil _, fun _ => rfl⟩
    rw [diagnose_lexical _ he, diagnose_lexical _ he, List.append_nil]
  | empty =>
    have htokens : tokenize sql = .ok [] := ho
    refine ⟨[], ?_, AllOf.nil _, fun _ => rfl⟩
    rw [diagnose_empty _ htokens, diagnose_empty _ htokens, List.append_nil]
  | crashed =>
    obtain ⟨t, ts, point, cause, htokens, hhook⟩ := ho
    refine ⟨[], ?_, AllOf.nil _, fun _ => rfl⟩
    have hreport : ∀ extended, (Checker.mk d extended).diagnose sql =
        [(Failure.crash cause).diagnostic] := fun _ => diagnose_crashed hd htokens hhook
    rw [hreport, hreport, List.append_nil]
  | staged =>
    have hstaged := ho
    obtain ⟨t, ts, htokens, hhooks⟩ := ho
    -- Only here do the extended checks run at all.
    rcases d.diagnostics_cases (.ofKeyword t.text) (t :: ts) with
      ⟨as, bs, cs, -, -, -, hdialect⟩ | ⟨point, cause, hcause, -⟩
    · obtain ⟨others, E, hall, hoff, hon⟩ :=
        stages_extended d sql (Statement.classify?_cons t ts) hdialect
      refine ⟨E, ?_, hall, fun hnot => absurd hstaged hnot⟩
      rw [diagnose_of_stages htokens hon, diagnose_of_stages htokens hoff]
    · obtain ⟨ds, hds⟩ := hhooks point
      rw [hcause] at hds
      cases hds

/-! ## The outcome of a check -/

/-- For every text, every offered dialect and with or without the extended checks, exactly
    one outcome is reported, and it is the one that arises. A crash is reported with the text
    it came with, or with a general one. Turning the extended checks on appends diagnostics
    of the grammar where every stage answers, and changes nothing otherwise. -/
theorem diagnose_outcome {c : Checker} (hd : c.dialect.Offered) (sql : String) :
    (∃! o : Outcome, o.Reports c sql (c.diagnose sql)) ∧
    (∀ o : Outcome, o.Reports c sql (c.diagnose sql) ↔ o.Arises c.dialect sql) ∧
    (∀ t ts point cause, tokenize sql = .ok (t :: ts) →
      c.dialect.hook point (.ofKeyword t.text) (t :: ts) = .error cause →
      c.diagnose sql = [⟨1, "Fatal error", cause.message, .fatal⟩]) ∧
    (∃ E, (Checker.mk c.dialect true).diagnose sql =
        (Checker.mk c.dialect false).diagnose sql ++ E ∧
      AllOf .grammar E ∧ (¬ Outcome.staged.Arises c.dialect sql → E = [])) := by
  refine ⟨?_, reports_iff_arises hd sql, ?_, diagnose_extended hd sql⟩
  · obtain ⟨o, ho⟩ := Outcome.exists_arises c.dialect sql
    have hreports := reports_of_arises hd ho
    exact ⟨o, hreports, fun o' ho' => Outcome.Reports.unique ho' hreports⟩
  · intro t ts point cause htokens hhook
    exact diagnose_crashed hd htokens hhook

/-- A plain dialect whose second hook breaks down, and a text with a token. -/
theorem diagnose_outcome_faulty :
    let d := Dialect.plain "plain" 3 (some (.clauses, .saying "out of order"))
    d.Offered ∧ Outcome.crashed.Reports ⟨d, true⟩ "DROP" ((Checker.mk d true).diagnose "DROP") ∧
      (Checker.mk d true).diagnose "DROP" = [⟨1, "Fatal error", "out of order", .fatal⟩] := by
  intro d
  have hd : d.Offered := .inr ⟨_, _, _, rfl⟩
  have htokens : tokenize "DROP" = .ok [⟨.keyword, "DROP", 1⟩] := by decide +kernel
  have h := diagnose_outcome (c := ⟨d, true⟩) hd "DROP"
  refine ⟨hd, (h.2.1 .crashed).2 ?_, ?_⟩
  · exact ⟨⟨.keyword, "DROP", 1⟩, [], .clauses, .saying "out of order", htokens, rfl⟩
  · exact h.2.2.1 ⟨.keyword, "DROP", 1⟩ [] .clauses (.saying "out of order") htokens rfl

end Checker

end QueryLint

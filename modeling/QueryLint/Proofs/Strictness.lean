/-
  QueryLint.Proofs.Strictness

  When one dialect is stricter than another: it allows no deeper nesting, and its hooks find
  something wherever those of the other do (`Dialect.Stricter`). A query passes exactly if it
  has tokens and no stage finds anything (`diagnose_eq_nil_iff`), so what passes a stricter
  dialect passes the other. ANSI is stricter than MySQL: its one hook that MySQL has too only
  objects to a `LIMIT`, and ANSI allows none.
-/
import QueryLint.Proofs.ClauseGrammar
import QueryLint.Proofs.Outcome

namespace QueryLint

open QueryLint.Token

/-! ## Structural rules with another limit -/

theorem Structure.diagnostics_eq_ok_nil_iff {sql : String} {limit depth : Nat}
    (hdepth : Paren.selectDepth sql.toList = .ok depth) :
    Structure.diagnostics sql limit = .ok [] ↔
      parensMatch sql.toList = true ∧ quotesPair sql.toList = true ∧ depth ≤ limit := by
  have hviolations : Structure.diagnostics sql limit =
      .ok (((if parensMatch sql.toList then [] else [Violation.unmatchedParens]) ++
        (if quotesPair sql.toList then [] else [Violation.oddQuotes]) ++
        (if depth ≤ limit then [] else [Violation.tooDeep limit])).map Violation.diagnostic) := by
    rw [Structure.diagnostics, violations, hdepth]
    rfl
  rw [hviolations, Except.ok.injEq, List.map_eq_nil_iff, List.append_eq_nil_iff,
    List.append_eq_nil_iff, and_assoc]
  simp

/-- A query that keeps the structural rules keeps them with a greater limit. -/
theorem Structure.diagnostics_nil_of_le {sql : String} {limit limit' : Nat} (hle : limit ≤ limit')
    (h : Structure.diagnostics sql limit = .ok []) :
    Structure.diagnostics sql limit' = .ok [] := by
  obtain ⟨depth, hdepth⟩ := Paren.selectDepth_ok sql.toList
  rw [diagnostics_eq_ok_nil_iff hdepth] at h ⊢
  exact ⟨h.1, h.2.1, Nat.le_trans h.2.2 hle⟩

/-! ## Queries that pass -/

namespace Checker

/-- What it takes for a query to pass: it has tokens, and no stage finds anything. -/
structure Passes (c : Checker) (sql : String) (t : Token) (ts : List Token) : Prop where
  tokens : tokenize sql = .ok (t :: ts)
  structural : Structure.diagnostics sql c.dialect.maxDepth = .ok []
  grammar : Grammar.diagnostics (t :: ts) = []
  dialect : c.dialect.diagnostics (.ofKeyword t.text) (t :: ts) = .ok []
  extended : c.extended = true → Extended.diagnostics sql (.ofKeyword t.text) (t :: ts) = .ok []

theorem stages_eq_ok_nil_iff (c : Checker) (sql : String) (t : Token) (ts : List Token) :
    c.stages sql (.ofKeyword t.text) (t :: ts) = .ok [] ↔
      Structure.diagnostics sql c.dialect.maxDepth = .ok [] ∧ Grammar.diagnostics (t :: ts) = [] ∧
      c.dialect.diagnostics (.ofKeyword t.text) (t :: ts) = .ok [] ∧
      (c.extended = true → Extended.diagnostics sql (.ofKeyword t.text) (t :: ts) = .ok []) := by
  obtain ⟨vs, -, hstructure⟩ := Structure.diagnostics_ok sql c.dialect.maxDepth
  obtain ⟨E, hextended, -⟩ := Extended.diagnostics_ok sql (Statement.classify?_cons t ts)
  rw [stages_eq c sql hstructure hextended, hstructure, hextended]
  -- All stages but the hooks of the dialect answer, and so must these.
  cases c.dialect.diagnostics (.ofKeyword t.text) (t :: ts) with
  | error cause => simp [Except.map]
  | ok D =>
    cases c.extended with
    | false => simp [Except.map]
    | true => simp [Except.map]

theorem diagnose_eq_nil_iff (c : Checker) (sql : String) :
    c.diagnose sql = [] ↔ ∃ t ts, c.Passes sql t ts := by
  constructor
  · intro h
    cases htokens : tokenize sql with
    | error e =>
      rw [c.diagnose_lexical htokens] at h
      cases h
    | ok tokens =>
      cases tokens with
      | nil =>
        rw [c.diagnose_empty htokens] at h
        cases h
      | cons t ts =>
        cases hstages : c.stages sql (.ofKeyword t.text) (t :: ts) with
        | error cause =>
          -- A hook that breaks down is reported, so the query has a diagnostic.
          have hcheck : c.check sql = .error (.crash cause) := by
            rw [c.check_of_tokens htokens (Statement.classify?_cons t ts), hstages]
            rfl
          rw [diagnose_of_error hcheck] at h
          cases h
        | ok ds =>
          rw [diagnose_of_stages htokens hstages] at h
          rw [h, stages_eq_ok_nil_iff] at hstages
          obtain ⟨hstructural, hgrammar, hdialect, hextended⟩ := hstages
          exact ⟨t, ts, htokens, hstructural, hgrammar, hdialect, hextended⟩
  · rintro ⟨t, ts, h⟩
    exact diagnose_of_stages h.tokens ((c.stages_eq_ok_nil_iff sql t ts).2
      ⟨h.structural, h.grammar, h.dialect, h.extended⟩)

end Checker

/-! ## Stricter dialects -/

namespace Dialect

/-- A dialect that allows no deeper nesting than another, and whose hooks find something
    wherever those of the other do. -/
structure Stricter (strict lax : Dialect) : Prop where
  maxDepth_le : strict.maxDepth ≤ lax.maxDepth
  hooks : ∀ statement ts, strict.diagnostics statement ts = .ok [] →
    lax.diagnostics statement ts = .ok []

/-- A token sequence in which ANSI finds nothing forbidden has no `LIMIT`. -/
theorem find?_limit_of_ansi {ts : List Token} (h : Ansi.clauseViolations ts = []) :
    Clause.find? ts "LIMIT" = none := by
  rw [Ansi.clauseViolations, List.map_eq_nil_iff, List.filter_eq_nil_iff] at h
  rw [Clause.find?_eq_none_iff]
  rintro ⟨t, ht, hlimit⟩
  apply h t ht
  rw [hlimit]
  decide

theorem stricter_ansi_mysql : Stricter ansi mysql where
  maxDepth_le := by decide
  hooks := by
    intro statement ts h
    have hansi : ansi.diagnostics statement ts =
        .ok ((Ansi.statementViolations statement).map Violation.diagnostic ++
          (Ansi.clauseViolations ts).map Violation.diagnostic ++ []) := rfl
    rw [hansi, Except.ok.injEq, List.append_nil, List.append_eq_nil_iff, List.map_eq_nil_iff,
      List.map_eq_nil_iff] at h
    -- MySQL asks for a number behind the first `LIMIT`, and there is none to ask about.
    have hmysql : mysql.diagnostics statement ts =
        .ok ([] ++ (MySql.clauseViolations ts).map Violation.diagnostic ++ []) := rfl
    rw [hmysql, MySql.clauseViolations, find?_limit_of_ansi h.2]
    rfl

end Dialect

namespace Checker

/-- A query that passes a stricter dialect passes the other. -/
theorem diagnose_nil_of_stricter {strict lax : Dialect} (h : strict.Stricter lax) {extended : Bool}
    {sql : String} (hpass : (Checker.mk strict extended).diagnose sql = []) :
    (Checker.mk lax extended).diagnose sql = [] := by
  rw [diagnose_eq_nil_iff] at hpass ⊢
  obtain ⟨t, ts, hpass⟩ := hpass
  exact ⟨t, ts, hpass.tokens, Structure.diagnostics_nil_of_le h.maxDepth_le hpass.structural,
    hpass.grammar, h.hooks _ _ hpass.dialect, hpass.extended⟩

/-- ANSI is the stricter of the two built-in dialects: with or without the extended checks, a
    query for which it has no diagnostic has none for MySQL either. -/
theorem mysql_accepts_of_ansi (sql : String) (extended : Bool)
    (h : (Checker.mk .ansi extended).diagnose sql = []) :
    (Checker.mk .mysql extended).diagnose sql = [] :=
  diagnose_nil_of_stricter Dialect.stricter_ansi_mysql h

/-- A query with a subquery and a `LIMIT` in a literal. -/
theorem mysql_accepts_of_ansi_subquery :
    let sql := "SELECT a FROM (SELECT 'LIMIT' FROM t)"
    (Checker.mk .ansi true).diagnose sql = [] ∧ (Checker.mk .mysql true).diagnose sql = [] := by
  intro sql
  have hansi : (Checker.mk .ansi true).diagnose sql = [] := by decide +kernel
  exact ⟨hansi, mysql_accepts_of_ansi sql true hansi⟩

/-- The converse fails where a `LIMIT` has its argument. -/
example : (Checker.mk .mysql false).diagnose "DROP TABLE t LIMIT 5" = [] ∧
    (Checker.mk .ansi false).diagnose "DROP TABLE t LIMIT 5" ≠ [] := by
  decide +kernel

end Checker

end QueryLint

/-
  QueryLint.Proofs.LiteralContents

  What stands in a literal never influences the checks of tokens. Two token sequences with the
  same first text that differ in literals at most (`AlikeButLiterals`) read the same to every
  check, and the checks depend on these readings and the first text alone. So the clause
  grammar, each hook of a built-in dialect, the check of a leading `WITH` and that of set
  operations give the same diagnostics for both (`Checker.literals_never_matter`).
-/
import QueryLint.Proofs.Verdict

namespace QueryLint

open QueryLint.Token

/-- Token sequences of one length, with the same first text, in which the texts at every other
    place agree or both begin with a quote. Classes and lines may differ anywhere. -/
structure AlikeButLiterals (ts us : List Token) : Prop where
  ne_nil : ts ≠ []
  length_eq : ts.length = us.length
  first : Statement.leadingText? ts = Statement.leadingText? us
  others : ∀ i t u, 0 < i → ts[i]? = some t → us[i]? = some u →
    t.text = u.text ∨ isQuoted t.text = true ∧ isQuoted u.text = true

namespace AlikeButLiterals

variable {ts us : List Token}

theorem bare_eq {t u : Token}
    (h : t.text = u.text ∨ isQuoted t.text = true ∧ isQuoted u.text = true) : t.bare = u.bare := by
  rw [bare, bare, reading, reading]
  rcases h with h | ⟨ht, hu⟩
  · rw [h]
  · rw [ht, hu]
    rfl

/-- Token sequences that differ in literals at most read the same. -/
theorem map_bare (h : AlikeButLiterals ts us) : ts.map bare = us.map bare := by
  apply List.ext_getElem?
  intro i
  rw [List.getElem?_map, List.getElem?_map]
  by_cases hi : i < ts.length
  · have ht := List.getElem?_eq_getElem hi
    have hu := List.getElem?_eq_getElem (h.length_eq ▸ hi)
    rw [ht, hu, Option.map_some, Option.map_some, bare_eq]
    cases i with
    | zero =>
      -- The first texts are the same also where they are literals.
      have hfirst := h.first
      rw [Statement.leadingText?, Statement.leadingText?, List.head?_eq_getElem?,
        List.head?_eq_getElem?, ht, hu] at hfirst
      exact .inl (Option.some.inj hfirst)
    | succ i => exact h.others (i + 1) _ _ (Nat.succ_pos i) ht hu
  · rw [List.getElem?_eq_none (Nat.not_lt.1 hi),
      List.getElem?_eq_none (h.length_eq ▸ Nat.not_lt.1 hi)]

/-- They begin with the same statement. -/
theorem exists_classify? (h : AlikeButLiterals ts us) :
    ∃ statement, Statement.classify? ts = some statement ∧
      Statement.classify? us = some statement := by
  obtain ⟨t, rest, rfl⟩ := List.exists_cons_of_ne_nil h.ne_nil
  refine ⟨.ofKeyword t.text, rfl, ?_⟩
  rw [Statement.classify?, ← h.first]
  rfl

end AlikeButLiterals

namespace Checker

/-- Every check of tokens answers with the same diagnostics for two token sequences that differ
    in literals at most: the clause grammar and, with the statement read off the tokens, each
    hook of a built-in dialect, the check of a leading `WITH` and the check of set operations. -/
theorem literals_never_matter {ts us : List Token} (h : AlikeButLiterals ts us) :
    Grammar.diagnostics ts = Grammar.diagnostics us ∧
    ∃ statement, Statement.classify? ts = some statement ∧
      Statement.classify? us = some statement ∧
      (∀ d ∈ [Dialect.ansi, Dialect.mysql], ∀ point, ∃ ds,
        d.hook point statement ts = .ok ds ∧ d.hook point statement us = .ok ds) ∧
      (∃ ds, Cte.diagnostics statement ts = .ok ds ∧ Cte.diagnostics statement us = .ok ds) ∧
      SetOperation.diagnostics statement ts = SetOperation.diagnostics statement us := by
  have hbare := h.map_bare
  obtain ⟨statement, hts, hus⟩ := h.exists_classify?
  refine ⟨?_, statement, hts, hus, ?_, ?_, ?_⟩
  · rw [Grammar.diagnostics, Grammar.diagnostics, Grammar.violations_congr hbare h.first]
  · intro d hd point
    obtain ⟨ds, hds, -⟩ := Dialect.hook_of_builtin hd point statement ts
    exact ⟨ds, hds, by rw [← Dialect.hook_congr hd point statement hbare, hds]⟩
  · obtain ⟨ds, hds, -⟩ := Cte.diagnostics_ok hts
    refine ⟨ds, hds, ?_⟩
    rw [← hds, Cte.diagnostics, Cte.diagnostics, eq_of_bare (Cte.violations_bare statement) hbare]
  · rw [SetOperation.diagnostics, SetOperation.diagnostics,
      eq_of_bare (SetOperation.violations_bare statement) hbare]

/-- A forbidden keyword in one literal and a parenthesis in the other, before a set operation. -/
theorem literals_never_matter_union :
    let ts : List Token :=
      [⟨.keyword, "SELECT", 1⟩, ⟨.string, "'LIMIT'", 1⟩, ⟨.keyword, "UNION", 1⟩]
    let us : List Token :=
      [⟨.identifier, "SELECT", 3⟩, ⟨.symbol, "'('", 1⟩, ⟨.string, "UNION", 2⟩]
    AlikeButLiterals ts us ∧ Grammar.diagnostics ts = Grammar.diagnostics us ∧
      ∃ statement, Statement.classify? ts = some statement ∧
        SetOperation.diagnostics statement ts = SetOperation.diagnostics statement us := by
  intro ts us
  have halike : AlikeButLiterals ts us := by
    refine ⟨by simp [ts], rfl, rfl, ?_⟩
    rintro (_ | _ | _ | i) t u hi ht hu
    · cases hi
    · cases ht
      cases hu
      exact .inr ⟨by decide, by decide⟩
    · cases ht
      cases hu
      exact .inl rfl
    · cases ht
  obtain ⟨hgrammar, statement, hts, -, -, -, hset⟩ := literals_never_matter halike
  exact ⟨halike, hgrammar, statement, hts, hset⟩

end Checker

end QueryLint

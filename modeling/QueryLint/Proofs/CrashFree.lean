/-
  QueryLint.Proofs.CrashFree

  Checking a query against a built-in dialect never breaks down, whatever its text. The
  places where it could are the ranges cut out of the raw text where a parenthesis
  closes, the level the nesting counter goes up there, and the range of tokens before
  the first `AS`. `Checker.check_never_crashes` says of each why it is safe.
-/
import QueryLint.Proofs.Stages

namespace QueryLint

open QueryLint.Text QueryLint.Paren

namespace Paren

/-- What makes it safe to close the group opened at offset `i` with the parenthesis at offset
    `j`, after the parentheses `before`: there is an opening parenthesis at `i`, it was seen
    before, and the range between the two is a part of the text. -/
structure SafePop (cs : List Char) (before : List Seen) (i j : Nat) : Prop where
  is_opening : ∃ a b, cs = a ++ '(' :: b ∧ utf8Size a = i
  seen_before : ⟨.opening, i⟩ ∈ before
  earlier : i < j
  range : ValidRange cs (i + 1) j

theorem SafePop.of_split {cs : List Char} {before after : List Seen} {i j : Nat}
    (hseen : seen cs = before ++ ⟨.closing, j⟩ :: after) (hi : ⟨.opening, i⟩ ∈ before) :
    SafePop cs before i j := by
  have hmem : (⟨.opening, i⟩ : Seen) ∈ seen cs := by
    rw [hseen]
    exact List.mem_append_left _ hi
  obtain ⟨a, b, htext, hoffset⟩ := mem_seen hmem
  obtain ⟨body, hbody⟩ := slice?_of_split hseen hi
  exact ⟨⟨a, b, htext, hoffset.symm⟩, hi, offset_lt_of_split hseen hi, .of_slice? hbody⟩

/-- The nesting counter reaches every parenthesis of a text, its depth is the number of
    parentheses open, and a group is only closed safely. -/
theorem Nesting.run_safe {cs : List Char} {before after : List Seen}
    (hseen : seen cs = before ++ after) :
    ∃ n, Nesting.start.run cs before = .ok n ∧ n.depth = n.opened.length ∧
      ∀ j rest i outer, after = ⟨.closing, j⟩ :: rest → n.opened = i :: outer →
        1 ≤ n.depth ∧ SafePop cs before i j := by
  have hsplit : seen cs = [] ++ before ++ after := by simpa using hseen
  obtain ⟨n, hrun, hsound⟩ := Nesting.run_sound hsplit Nesting.start_sound
  refine ⟨n, hrun, hsound.depth_eq, ?_⟩
  rintro j rest i outer rfl hopened
  constructor
  · rw [hsound.depth_eq, hopened, List.length_cons]
    omega
  · apply SafePop.of_split hseen
    exact hsound.opened_seen i (by simp [hopened])

theorem Group.safePop {cs : List Char} {g : Group} (hg : g ∈ groups cs) :
    ∃ before after, seen cs = before ++ ⟨.closing, g.stop⟩ :: after ∧
      SafePop cs before g.start g.stop := by
  obtain ⟨before, after, hseen, hopen⟩ := mem_groups hg
  exact ⟨before, after, hseen, .of_split hseen hopen⟩

end Paren

namespace Checker

/-- Checked against a built-in dialect, a text has a lexical error or all stages answer. -/
theorem check_builtin (sql : String) {d : Dialect} (hd : d ∈ Dialect.builtin) (extended : Bool) :
    (∃ e, (Checker.mk d extended).check sql = .error (.lexical e)) ∨
      ∃ ds, (Checker.mk d extended).check sql = .ok ds ∧ ∀ x ∈ ds, x.category ≠ .fatal := by
  cases htokens : Token.tokenize sql with
  | error e => exact .inl ⟨e, check_of_lexError _ htokens⟩
  | ok ts =>
    right
    cases hstatement : Statement.classify? ts with
    | none =>
      have hnil : ts = [] := by
        cases ts with
        | nil => rfl
        | cons t ts => cases hstatement
      rw [hnil] at htokens
      exact ⟨_, check_of_no_token _ htokens, by decide⟩
    | some statement =>
      have hhooks : ∀ point, ∃ ds, d.hook point statement ts = .ok ds := by
        intro point
        obtain ⟨ds, hds, -⟩ := Dialect.hook_of_builtin hd point statement ts
        exact ⟨ds, hds⟩
      obtain ⟨S, G, D, E, hparts, hstages⟩ :=
        stages_ok (c := ⟨d, extended⟩) (.inl hd) sql hstatement hhooks
      refine ⟨S ++ G ++ D ++ E, ?_, fun x hx => (hparts.category_ne x hx).2⟩
      rw [check_of_tokens _ htokens hstatement, hstages]
      rfl

/-- Checking any text against a built-in dialect, with or without the extended checks, never
    breaks down, so no fatal diagnostic is reported. Wherever the nesting counter or the
    search for subqueries closes a group, it does so safely; the depth of the counter is the
    number of parentheses open, hence at least one where it goes a level up; and for a
    statement read off the same tokens, the first `AS` after a leading `WITH` is not the
    first token. -/
theorem check_never_crashes (sql : String) {d : Dialect} (hd : d ∈ Dialect.builtin)
    (extended : Bool) :
    (∀ cause, (Checker.mk d extended).check sql ≠ .error (.crash cause)) ∧
    (∀ x ∈ (Checker.mk d extended).diagnose sql, x.category ≠ .fatal) ∧
    (∀ before after, seen sql.toList = before ++ after →
      ∃ n, Nesting.start.run sql.toList before = .ok n ∧ n.depth = n.opened.length ∧
        ∀ j rest i outer, after = ⟨.closing, j⟩ :: rest → n.opened = i :: outer →
          1 ≤ n.depth ∧ SafePop sql.toList before i j) ∧
    (∀ g ∈ groups sql.toList, ∃ before after,
      seen sql.toList = before ++ ⟨.closing, g.stop⟩ :: after ∧
        SafePop sql.toList before g.start g.stop) ∧
    (∀ ts statement i, Statement.classify? ts = some statement → statement.keyword = "WITH" →
      Clause.find? ts "AS" = some i → 1 ≤ i) := by
  have hcheck := check_builtin sql hd extended
  refine ⟨?_, ?_, fun _ _ => Nesting.run_safe, fun _ => Group.safePop,
    fun _ _ _ => Cte.pos_of_find?_as⟩
  · intro cause
    rcases hcheck with ⟨e, he⟩ | ⟨ds, hds, -⟩
    · rw [he]
      simp
    · rw [hds]
      simp
  · rcases hcheck with ⟨e, he⟩ | ⟨ds, hds, hcategory⟩
    · rw [diagnose_of_error he]
      simp [Failure.diagnostic]
    · rw [diagnose_of_ok hds]
      exact hcategory

/-- A text with unmatched parentheses, one in a string and characters of several octets,
    checked against the ANSI dialect with the extended checks. -/
theorem check_never_crashes_unbalanced :
    Dialect.ansi ∈ Dialect.builtin ∧
    (∀ cause, (Checker.mk .ansi true).check "SELECT 'é(' FROM (SELECT 'ü' FROM t) ))" ≠
      .error (.crash cause)) ∧
    (∀ x ∈ (Checker.mk .ansi true).diagnose "SELECT 'é(' FROM (SELECT 'ü' FROM t) ))",
      x.category ≠ .fatal) := by
  have hansi : Dialect.ansi ∈ Dialect.builtin := List.mem_cons_self
  have h := check_never_crashes "SELECT 'é(' FROM (SELECT 'ü' FROM t) ))" hansi true
  exact ⟨hansi, h.1, h.2.1⟩

end Checker

end QueryLint

/-
  QueryLint.Proofs.SubqueryList

  The list of subqueries of a text. They are found with a stack while the text is read; said
  without it, a subquery is a pair of live parentheses, with balanced ones between them, whose
  text begins with `SELECT` once it is trimmed (`Subquery.Spans`). `Subquery.all_exact` says that
  the list holds these and no others, each once, in the order of the closing parentheses.
  `Subquery.diagnostics_of_all` tells what is reported once the list is there.
-/
import QueryLint.Proofs.LiveParens
import QueryLint.Proofs.NestingDepth

namespace QueryLint

open QueryLint.Text QueryLint.Paren

theorem Text.beginsWithSelect_iff {cs : List Char} :
    beginsWithSelect cs = true ↔
      ∃ word rest, cs = word ++ rest ∧ upperAscii word = "SELECT".toList := by
  rw [beginsWithSelect, beq_iff_eq]
  constructor
  · intro h
    exact ⟨cs.take 6, cs.drop 6, (List.take_append_drop 6 cs).symm, h⟩
  · rintro ⟨word, rest, rfl, hword⟩
    have hlength : word.length = 6 := by simpa [upperAscii] using congrArg List.length hword
    rw [← hlength, List.take_left]
    exact hword

/-- Groups are found in the order of their closing parentheses. -/
theorem Paren.groupsFrom_sorted (opened : List Nat) {ps : List Seen}
    (h : ps.Pairwise fun p q => p.offset < q.offset) :
    (groupsFrom opened ps).Pairwise fun g k => g.stop < k.stop := by
  induction ps generalizing opened with
  | nil => exact .nil
  | cons p ps ih =>
    rw [List.pairwise_cons] at h
    obtain ⟨side, j⟩ := p
    cases side with
    | opening => exact ih _ h.2
    | closing =>
      cases opened with
      | nil => exact ih _ h.2
      | cons i outer =>
        rw [groupsFrom, List.pairwise_cons]
        exact ⟨fun g hg => h.1 _ (closing_mem_of_mem_groupsFrom hg), ih _ h.2⟩

namespace Subquery

/-! ## The groups that are subqueries -/

/-- The group makes this subquery. -/
def OfGroup (cs : List Char) (g : Group) (s : Subquery) : Prop :=
  ∃ body, g.body cs = .ok body ∧ beginsWithSelect (trim body) = true ∧
    s = ⟨g.start, g.stop, trim body⟩

/-- The subqueries among groups are those the groups make, in their order. -/
theorem exists_ofGroups {cs : List Char} {gs : List Group} (hgs : ∀ g ∈ gs, g ∈ groups cs) :
    ∃ ss, ofGroups cs gs = .ok ss ∧ (ss.map group).Sublist gs ∧
      ∀ s, s ∈ ss ↔ ∃ g ∈ gs, OfGroup cs g s := by
  induction gs with
  | nil => exact ⟨[], rfl, .slnil, by simp⟩
  | cons g gs ih =>
    rw [List.forall_mem_cons] at hgs
    obtain ⟨body, hbody⟩ := Group.body_ok hgs.1
    obtain ⟨ss, hss, hsublist, hmem⟩ := ih hgs.2
    rw [ofGroups_cons hbody hss]
    by_cases hselect : beginsWithSelect (trim body) = true
    · rw [if_pos hselect]
      refine ⟨_, rfl, hsublist.cons_cons g, fun s => ?_⟩
      have hhere : OfGroup cs g s ↔ s = ⟨g.start, g.stop, trim body⟩ := by
        simp [OfGroup, hbody, hselect]
      rw [List.mem_cons, hmem, List.exists_mem_cons_iff, hhere]
    · rw [if_neg hselect]
      refine ⟨_, rfl, hsublist.cons g, fun s => ?_⟩
      have hhere : ¬ OfGroup cs g s := by
        simp [OfGroup, hbody, hselect]
      rw [hmem, List.exists_mem_cons_iff, or_iff_right hhere]

/-! ## Subqueries by positions -/

/-- What stands between the parentheses at two offsets is a subquery: both are live, the live
    ones between them are balanced, and the text begins with `SELECT`, in any case and after
    blanks. -/
structure Spans (cs : List Char) (i j : Nat) (body : List Char) : Prop where
  opening : Live cs ⟨.opening, i⟩
  closing : Live cs ⟨.closing, j⟩
  balanced : ∃ ps, LiveBetween cs i j ps ∧ Balanced ps
  text : TextBetween cs i j body
  select : ∃ word rest, trim body = word ++ rest ∧ upperAscii word = "SELECT".toList

theorem exists_ofGroup_iff {cs : List Char} {s : Subquery} :
    (∃ g ∈ groups cs, OfGroup cs g s) ↔
      ∃ body, Spans cs s.start s.stop body ∧ s.text = trim body := by
  constructor
  · rintro ⟨g, hg, body, hbody, hselect, rfl⟩
    rw [mem_groups_iff] at hg
    obtain ⟨-, hopening, hclosing, hbalanced⟩ := Group.matched_iff.1 hg
    exact ⟨body, ⟨hopening, hclosing, hbalanced, hg.body_eq_ok_iff.1 hbody,
      beginsWithSelect_iff.1 hselect⟩, rfl⟩
  · rintro ⟨body, h, htext⟩
    have hlt : s.start < s.stop := by
      obtain ⟨_, _, -, -, hstop⟩ := h.text
      omega
    have hg : s.group.Matched cs :=
      Group.matched_iff.2 ⟨hlt, h.opening, h.closing, h.balanced⟩
    refine ⟨s.group, mem_groups_iff.2 hg, body, hg.body_eq_ok_iff.2 h.text,
      beginsWithSelect_iff.2 h.select, ?_⟩
    rw [← htext]
    rfl

/-- The subqueries of a text are found, and are exactly those its positions make: each pair of
    offsets once, with the trimmed text between them, in increasing order of the closing
    parenthesis. -/
theorem all_exact (cs : List Char) :
    ∃ ss, all cs = .ok ss ∧
      (∀ s : Subquery, s ∈ ss ↔ ∃ body, Spans cs s.start s.stop body ∧ s.text = trim body) ∧
      (ss.map fun s => (s.start, s.stop)).Nodup ∧
      ss.Pairwise fun s t => s.stop < t.stop := by
  obtain ⟨ss, hss, hsublist, hmem⟩ := exists_ofGroups fun g (hg : g ∈ groups cs) => hg
  have hgroups : (ss.map group).Pairwise fun g k => g.stop < k.stop :=
    (groupsFrom_sorted [] (seen_sorted cs)).sublist hsublist
  have hsorted : ss.Pairwise fun s t => s.stop < t.stop := by
    rw [List.pairwise_map] at hgroups
    exact hgroups
  refine ⟨ss, hss, fun s => (hmem s).trans exists_ofGroup_iff, ?_, hsorted⟩
  refine List.pairwise_map.2 (hsorted.imp ?_)
  intro s t hst heq
  exact Nat.ne_of_lt hst (congrArg Prod.snd heq)

-- A closing parenthesis too many, one in a string, and an opening one that is never closed.
example : all "é) (SELECT ')' ( select 1 )) (SELECT".toList =
    .ok [⟨16, 27, "select 1".toList⟩, ⟨4, 28, "SELECT ')' ( select 1 )".toList⟩] := by
  decide +kernel

/-! ## What is reported -/

/-- What is reported about a subquery by itself. -/
def ownDiagnostics (s : Subquery) : List Diagnostic :=
  s.ownViolations.map Violation.diagnostic

/-- What is reported is what is wrong with each subquery in turn, and then their nesting. -/
theorem diagnostics_of_all {sql : String} {ss : List Subquery} (h : all sql.toList = .ok ss) :
    diagnostics sql = .ok (ss.flatMap ownDiagnostics ++
      (if deepest ss ≤ recommendedNesting then [] else [Violation.tooDeep.diagnostic])) := by
  have hown : (ss.flatMap ownViolations).map Violation.diagnostic = ss.flatMap ownDiagnostics :=
    List.map_flatMap
  rw [diagnostics, h]
  show Except.ok ((violationsOf ss).map Violation.diagnostic) = _
  rw [violationsOf, List.map_append, hown]
  split <;> rfl

end Subquery

end QueryLint

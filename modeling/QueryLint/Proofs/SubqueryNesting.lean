/-
  QueryLint.Proofs.SubqueryNesting

  How subqueries lie to one another, and when their nesting is reported. Groups never cross: of
  two groups the one that closes first ends before the other begins or lies inside it
  (`groupsFrom_laminar`), whatever parentheses without a partner stand between. The groups around
  one group therefore lie inside one another, so that counting them, as the check does, measures
  the longest chain of subqueries each around the next (`Subquery.lt_deepest_iff`).
-/
import QueryLint.Proofs.NestingFormula
import QueryLint.Proofs.SubqueryList

namespace QueryLint.Paren

/-! ## Groups never cross -/

/-- A group ends before another begins, or lies inside it. -/
def Group.Yields (g k : Group) : Prop :=
  g.stop < k.start ∨ g.Inside k

/-- A group starts with a parenthesis that was open before or is read on the way. -/
theorem start_of_mem_groupsFrom {opened : List Nat} {ps : List Seen} {g : Group}
    (hg : g ∈ groupsFrom opened ps) : g.start ∈ opened ∨ ⟨.opening, g.start⟩ ∈ ps := by
  have hstart := (perm_stackAfter_starts opened ps).mem_iff.1
    (List.mem_append_right _ (List.mem_map_of_mem hg))
  rwa [List.mem_append, mem_openings] at hstart

theorem groupsFrom_laminar {opened : List Nat} {ps : List Seen} (h : InOrder opened ps) :
    (groupsFrom opened ps).Pairwise Group.Yields := by
  induction ps generalizing opened with
  | nil => exact .nil
  | cons p ps ih =>
    obtain ⟨side, j⟩ := p
    cases side with
    | opening => exact ih h.push
    | closing =>
      cases opened with
      | nil => exact ih h.pass
      | cons i outer =>
        rw [groupsFrom, List.pairwise_cons]
        refine ⟨fun k hk => ?_, ih h.pop⟩
        -- A later group starts below this one on the stack, or only after it is closed.
        rcases start_of_mem_groupsFrom hk with hopen | hopen
        · exact .inr ⟨(List.pairwise_cons.1 h.opened_sorted).1 _ hopen, h.lt_stop hk⟩
        · exact .inl ((List.pairwise_cons.1 h.sorted).1 _ hopen)

/-- Groups around one group that never cross lie inside one another. -/
theorem Group.Yields.inside {g a b : Group} (hg : g.start < g.stop) (ha : g.Inside a)
    (hb : g.Inside b) (h : a.Yields b) : a.Inside b := by
  refine h.resolve_left fun hapart => ?_
  have := ha.2
  have := hb.1
  omega

end QueryLint.Paren

namespace QueryLint.Subquery

open QueryLint.Text QueryLint.Paren

/-! ## Chains of subqueries -/

theorem encloses_iff {outer inner : Subquery} :
    outer.encloses inner = true ↔ inner.group.Inside outer.group := by
  simp [encloses, Group.Inside, group]

/-- Subqueries of a list, each around the next. -/
structure Chain (ss chain : List Subquery) : Prop where
  mem : ∀ s ∈ chain, s ∈ ss
  encloses : chain.IsChain fun outer inner => outer.encloses inner = true

/-- A subquery in a chain is around all that follow. -/
theorem Chain.pairwise {ss chain : List Subquery} (h : Chain ss chain) :
    chain.Pairwise fun outer inner => outer.encloses inner = true := by
  have htrans : Trans (fun outer inner : Subquery => outer.encloses inner = true)
      (fun outer inner => outer.encloses inner = true)
      (fun outer inner => outer.encloses inner = true) := by
    refine ⟨fun {a b c} hab hbc => ?_⟩
    simp only [Subquery.encloses, Bool.and_eq_true, decide_eq_true_eq] at hab hbc ⊢
    omega
  exact List.isChain_iff_pairwise.1 h.encloses

/-- All of a chain but its last subquery are around that one. -/
theorem Chain.length_le {ss front : List Subquery} {s : Subquery} (h : Chain ss (front ++ [s])) :
    front.length ≤ (ss.map group).countP fun outer => decide (s.group.Inside outer) := by
  have hinside : (s.group :: (front.map group).reverse).Pairwise Group.Inside := by
    have hreverse : s.group :: (front.map group).reverse = ((front ++ [s]).map group).reverse := by
      simp
    rw [hreverse, List.pairwise_reverse, List.pairwise_map]
    exact h.pairwise.imp encloses_iff.1
  have hmem : ∀ outer ∈ (front.map group).reverse, outer ∈ ss.map group := by
    intro outer houter
    obtain ⟨t, ht, rfl⟩ := List.mem_map.1 (List.mem_reverse.1 houter)
    exact List.mem_map_of_mem (h.mem t (List.mem_append_left _ ht))
  simpa using length_le_countP_inside hmem hinside

/-- Where groups never cross, the subqueries around one make a chain that ends with it. -/
theorem exists_chain {ss : List Subquery} (hss : (ss.map group).Pairwise Group.Yields)
    {s : Subquery} (hs : s ∈ ss) (hlt : s.start < s.stop) {k : Nat}
    (hk : k ≤ ss.countP (·.encloses s)) : ∃ chain, Chain ss chain ∧ chain.length = k + 1 := by
  let around := ss.filter (·.encloses s)
  have hmem : ∀ t ∈ s :: around, t ∈ ss :=
    List.forall_mem_cons.2 ⟨hs, fun t ht => (List.mem_filter.1 ht).1⟩
  have haround : ∀ t ∈ around, s.group.Inside t.group :=
    fun t ht => encloses_iff.1 (List.mem_filter.1 ht).2
  have hinside : (s :: around).Pairwise fun inner outer => outer.encloses inner = true := by
    refine List.pairwise_cons.2 ⟨fun t ht => encloses_iff.2 (haround t ht), ?_⟩
    refine ((List.pairwise_map.1 hss).filter _).imp_of_mem fun ha hb hab => ?_
    exact encloses_iff.2 (hab.inside hlt (haround _ ha) (haround _ hb))
  -- The chain runs from the outermost inwards, and no more than `k` of those around are needed.
  refine ⟨((s :: around).take (k + 1)).reverse, ⟨?_, ?_⟩, ?_⟩
  · intro t ht
    exact hmem t (List.mem_of_mem_take (List.mem_reverse.1 ht))
  · exact (List.pairwise_reverse.2 (hinside.sublist (List.take_sublist _ _))).isChain
  · rw [List.countP_eq_length_filter] at hk
    simpa [around] using hk

/-- Where groups never cross, the deepest level is the length of the longest chain. -/
theorem lt_deepest_iff {ss : List Subquery} (hss : (ss.map group).Pairwise Group.Yields)
    (hlt : ∀ s ∈ ss, s.start < s.stop) {k : Nat} :
    k < deepest ss ↔ ∃ chain, Chain ss chain ∧ chain.length = k + 1 := by
  rw [← Nat.not_le, deepest_le_iff]
  constructor
  · intro h
    simp only [List.forall_mem_map, not_forall, Nat.not_lt] at h
    obtain ⟨s, hs, hk⟩ := h
    refine exists_chain hss hs (hlt s hs) ?_
    have hlevel := level_eq ss s
    rw [level] at hlevel
    omega
  · rintro ⟨chain, hchain, hlength⟩ h
    rcases List.eq_nil_or_concat' chain with rfl | ⟨front, s, rfl⟩
    · cases hlength
    · rw [List.length_append, List.length_singleton] at hlength
      have hle := hchain.length_le
      have hfew := h s.group (List.mem_map_of_mem (hchain.mem s (by simp)))
      omega

/-! ## The report -/

/-- One of two subqueries ends before the other begins. -/
def Disjoint (s t : Subquery) : Prop :=
  s.stop < t.start ∨ t.stop < s.start

/-- Two subqueries that are disjoint or of which one is around the other. -/
def Apart (s t : Subquery) : Prop :=
  s.Disjoint t ∨ s.encloses t = true ∨ t.encloses s = true

instance : Std.Symm Apart :=
  ⟨fun _ _ h => h.imp Or.symm Or.symm⟩

theorem apart_of_yields {s t : Subquery} (h : s.group.Yields t.group) : s.Apart t :=
  h.imp .inl fun hinside => .inr (encloses_iff.2 hinside)

/-- About a subquery by itself nothing is reported as nesting. -/
theorem countP_tooDeep_own (ss : List Subquery) :
    (ss.flatMap ownDiagnostics).countP
      (fun d => decide (d.issue = "Excessive subquery nesting")) = 0 := by
  rw [List.countP_eq_zero]
  intro d hd hissue
  obtain ⟨s, -, hs⟩ := List.mem_flatMap.1 hd
  exact tooDeep_not_mem s ((exists_issue_iff (fun _ => Violation.issue_inj) _).1
    ⟨d, hs, of_decide_eq_true hissue⟩)

/-- Two subqueries of a text are disjoint or one is around the other. Their nesting is reported
    exactly if there are five of them each around the next, and then once. -/
theorem nesting_reported_exactly (sql : String) :
    ∃ ss ds, all sql.toList = .ok ss ∧ diagnostics sql = .ok ds ∧
      (∀ s ∈ ss, ∀ t ∈ ss, s ≠ t → s.Apart t) ∧
      ((∃ d ∈ ds, d.issue = "Excessive subquery nesting") ↔
        ∃ chain, Chain ss chain ∧ chain.length = 5) ∧
      ds.countP (fun d => decide (d.issue = "Excessive subquery nesting")) ≤ 1 := by
  obtain ⟨ss, hall, hsublist, -⟩ := exists_ofGroups fun g (hg : g ∈ groups sql.toList) => hg
  have hlaminar : (ss.map group).Pairwise Group.Yields :=
    (groupsFrom_laminar (.seen sql.toList)).sublist hsublist
  have hlt : ∀ s ∈ ss, s.start < s.stop := by
    intro s hs
    have hg := hsublist.subset (List.mem_map_of_mem (f := group) hs)
    exact (Group.matched_iff.1 (mem_groups_iff.1 hg)).1
  have hviolations : diagnostics sql = .ok ((violationsOf ss).map Violation.diagnostic) := by
    rw [diagnostics, show all sql.toList = .ok ss from hall]
    rfl
  refine ⟨ss, _, hall, hviolations, ?_, ?_, ?_⟩
  · intro s hs t ht
    have hapart : ss.Pairwise Apart := (List.pairwise_map.1 hlaminar).imp apart_of_yields
    exact hapart.forall hs ht
  · rw [reports_tooDeep_iff]
    exact lt_deepest_iff hlaminar hlt
  · rw [Except.ok.inj (hviolations.symm.trans (diagnostics_of_all hall)), List.countP_append,
      countP_tooDeep_own, Nat.zero_add]
    refine Nat.le_trans List.countP_le_length ?_
    split <;> simp

/-- Five levels between which stand a group that is no subquery, one beside the chain, and a
    parenthesis without a partner. -/
theorem nesting_reported_exactly_stray :
    let sql := "( (SELECT (select 1), (a (SELECT (SELECT ( select (SELECT ')'))))))"
    ∃ ss chain, all sql.toList = .ok ss ∧ ss.length = 6 ∧ Chain ss chain ∧ chain.length = 5 := by
  intro sql
  obtain ⟨ss, ds, hall, hds, -, hchain, -⟩ := nesting_reported_exactly sql
  have hreported : diagnostics sql = .ok [Violation.unmatchedParens.diagnostic,
      Violation.unmatchedParens.diagnostic, Violation.unmatchedParens.diagnostic,
      Violation.unmatchedParens.diagnostic, Violation.unmatchedParens.diagnostic,
      Violation.tooDeep.diagnostic] := by decide +kernel
  have hlength : (all sql.toList).map List.length = .ok 6 := by decide +kernel
  rw [hreported] at hds
  rw [hall] at hlength
  cases hds
  obtain ⟨chain, hmem, hfive⟩ := hchain.1 ⟨Violation.tooDeep.diagnostic, by simp, rfl⟩
  exact ⟨ss, chain, hall, Except.ok.inj hlength, hmem, hfive⟩

end QueryLint.Subquery

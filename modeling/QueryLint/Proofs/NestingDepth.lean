/-
  QueryLint.Proofs.NestingDepth

  Two counts of how deep subqueries nest. One keeps a running maximum of the parentheses open,
  from which groups without `SELECT` take one off; the other counts, for each subquery, those
  around it. Where every group is a subquery and every opening parenthesis has a partner, both
  are the most parentheses open at once (`peak`), and that is the length of the longest
  sequence of groups each inside the next.

  The running maximum is `peak` because nothing is ever taken off it (`Nesting.run_peak`). No
  group has more groups around it than parentheses were open (`countP_inside_lt_peak`), and those
  open at once, once all are closed, are groups inside one another (`exists_nest_peak`).
  `Paren.nesting_checks_agree` puts the counts together.
-/
import QueryLint.Proofs.MatchedParens
import QueryLint.Proofs.Stages
import Mathlib.Data.List.Perm.Subperm
import Mathlib.Order.Bounds.Defs

namespace QueryLint

namespace Text

/-! ## Texts that begin with `SELECT` -/

theorem hasInfix_iff {word cs : List Char} : hasInfix word cs = true ↔ word <:+: cs := by
  induction cs with
  | nil => simp [hasInfix]
  | cons c cs ih =>
    rw [hasInfix, Bool.or_eq_true, List.isPrefixOf_iff_prefix, ih, List.infix_cons_iff]

theorem trim_isInfix (cs : List Char) : trim cs <:+: cs := by
  have hfront := dropEndWhile_prefix isBlank (trimStart cs)
  exact hfront.isInfix.trans (List.dropWhile_suffix isBlank).isInfix

/-- A text that begins with `SELECT` once it is trimmed mentions it. -/
theorem mentionsSelect_of_trim {cs : List Char} (h : beginsWithSelect (trim cs) = true) :
    mentionsSelect cs = true := by
  rw [beginsWithSelect, beq_iff_eq] at h
  rw [mentionsSelect, hasInfix_iff, ← h]
  exact ((List.take_prefix 6 (trim cs)).isInfix.trans (trim_isInfix cs)).map Char.toUpper

end Text

namespace Paren

open QueryLint.Text

/-! ## The most parentheses open at once -/

/-- The most parentheses open at once, if `height` are open at first. -/
def peak (height : Nat) : List Seen → Nat
  | [] => height
  | ⟨.opening, _⟩ :: ps => peak (height + 1) ps
  | ⟨.closing, _⟩ :: ps => max height (peak (height - 1) ps)

theorem le_peak (height : Nat) (ps : List Seen) : height ≤ peak height ps := by
  induction ps generalizing height with
  | nil => exact Nat.le_refl _
  | cons p ps ih =>
    obtain ⟨side, j⟩ := p
    cases side with
    | opening => exact Nat.le_of_succ_le (ih (height + 1))
    | closing => exact Nat.le_max_left ..

/-- Closing a group takes one off the running maximum, unless the group mentions `SELECT`. -/
theorem Nesting.step_closing {cs body : List Char} {i j highest : Nat} {outer : List Nat}
    (hbody : between cs i j = .ok body) :
    Nesting.step cs ⟨i :: outer, outer.length + 1, highest⟩ ⟨.closing, j⟩ =
      .ok ⟨outer, outer.length, if mentionsSelect body = true then highest else highest - 1⟩ := by
  cases hselect : mentionsSelect body <;>
    simp [Nesting.step, levelUp, hbody, hselect, bind, Except.bind, pure, Except.pure]

/-- Where every group mentions `SELECT`, the running maximum is the most parentheses open. -/
theorem Nesting.run_peak {cs : List Char} {ps : List Seen} {opened : List Nat} {highest : Nat}
    (hhighest : opened.length ≤ highest)
    (hselect : ∀ g ∈ groupsFrom opened ps, ∃ body, g.body cs = .ok body ∧
      mentionsSelect body = true) :
    ∃ n, Nesting.run cs ⟨opened, opened.length, highest⟩ ps = .ok n ∧
      n.highest = max highest (peak opened.length ps) := by
  induction ps generalizing opened highest with
  | nil => exact ⟨_, rfl, (Nat.max_eq_left hhighest).symm⟩
  | cons p ps ih =>
    obtain ⟨side, j⟩ := p
    cases side with
    | opening =>
      -- The maximum rises to the new height at most, which the peak of the rest covers.
      obtain ⟨n, hrun, hn⟩ := @ih (j :: opened) _ (Nat.le_max_right highest _) hselect
      refine ⟨n, hrun, ?_⟩
      have hpeak := le_peak (opened.length + 1) ps
      rw [hn, peak, List.length_cons, Nat.max_assoc, Nat.max_eq_right hpeak]
    | closing =>
      cases opened with
      | nil =>
        -- A parenthesis that closes nothing is passed over.
        obtain ⟨n, hrun, hn⟩ := ih hhighest hselect
        refine ⟨n, hrun, ?_⟩
        rw [hn, peak, List.length_nil, Nat.zero_max]
      | cons i outer =>
        -- The height falls, and the maximum stays because this group mentions `SELECT`.
        rw [groupsFrom, List.forall_mem_cons] at hselect
        obtain ⟨⟨body, hbody, hmentions⟩, hselect⟩ := hselect
        rw [List.length_cons] at hhighest
        obtain ⟨n, hrun, hn⟩ := ih (Nat.le_of_succ_le hhighest) hselect
        refine ⟨n, ?_, ?_⟩
        · rw [Nesting.run, List.length_cons, Nesting.step_closing hbody, if_pos hmentions]
          exact hrun
        · rw [hn, peak, List.length_cons, Nat.add_sub_cancel, ← Nat.max_assoc,
            Nat.max_eq_left hhighest]

/-! ## Groups inside groups -/

/-- One group lies strictly inside another. -/
def Group.Inside (inner outer : Group) : Prop :=
  outer.start < inner.start ∧ inner.stop < outer.stop

instance (inner outer : Group) : Decidable (inner.Inside outer) :=
  inferInstanceAs (Decidable (_ ∧ _))

/-- Groups of a text, each inside all that follow. -/
structure Nest (cs : List Char) (gs : List Group) : Prop where
  matched : ∀ g ∈ gs, g.Matched cs
  inside : gs.Pairwise Group.Inside

/-- The open parentheses stand from right to left, and before those still to be read, which
    stand from left to right. -/
structure InOrder (opened : List Nat) (ps : List Seen) : Prop where
  opened_sorted : opened.Pairwise (· > ·)
  opened_before : ∀ i ∈ opened, ∀ p ∈ ps, i < p.offset
  sorted : ps.Pairwise fun p q => p.offset < q.offset

namespace InOrder

variable {opened : List Nat} {ps : List Seen} {p : Seen} {i : Nat}

theorem seen (cs : List Char) : InOrder [] (seen cs) :=
  ⟨.nil, by simp, seen_sorted cs⟩

theorem pass (h : InOrder opened (p :: ps)) : InOrder opened ps :=
  ⟨h.opened_sorted, fun i hi q hq => h.opened_before i hi q (List.mem_cons_of_mem _ hq),
    (List.pairwise_cons.1 h.sorted).2⟩

theorem push (h : InOrder opened (p :: ps)) : InOrder (p.offset :: opened) ps := by
  refine ⟨List.pairwise_cons.2 ⟨?_, h.opened_sorted⟩, ?_, h.pass.sorted⟩
  · intro i hi
    exact h.opened_before i hi p List.mem_cons_self
  · intro i hi q hq
    rcases List.mem_cons.1 hi with rfl | hi
    · exact (List.pairwise_cons.1 h.sorted).1 q hq
    · exact h.pass.opened_before i hi q hq

theorem pop (h : InOrder (i :: opened) (p :: ps)) : InOrder opened ps :=
  ⟨(List.pairwise_cons.1 h.opened_sorted).2,
    fun k hk => h.pass.opened_before k (List.mem_cons_of_mem _ hk), h.pass.sorted⟩

end InOrder

theorem closing_mem_of_mem_groupsFrom {opened : List Nat} {ps : List Seen} {g : Group}
    (hg : g ∈ groupsFrom opened ps) : ⟨.closing, g.stop⟩ ∈ ps := by
  induction ps generalizing opened with
  | nil => cases hg
  | cons p ps ih =>
    obtain ⟨side, j⟩ := p
    cases side with
    | opening => exact List.mem_cons_of_mem _ (ih hg)
    | closing =>
      cases opened with
      | nil => exact List.mem_cons_of_mem _ (ih hg)
      | cons i outer =>
        rw [groupsFrom] at hg
        rcases List.mem_cons.1 hg with rfl | hg
        · exact List.mem_cons_self
        · exact List.mem_cons_of_mem _ (ih hg)

/-- A group is closed only after the parentheses read before it. -/
theorem InOrder.lt_stop {opened : List Nat} {p : Seen} {ps : List Seen}
    (h : InOrder opened (p :: ps)) {outer : List Nat} {g : Group} (hg : g ∈ groupsFrom outer ps) :
    p.offset < g.stop :=
  (List.pairwise_cons.1 h.sorted).1 _ (closing_mem_of_mem_groupsFrom hg)

/-- Of the groups closed from now on, those that start before an offset which all further
    parentheses reach start with one that is open now. -/
theorem countP_start_lt_le {opened : List Nat} {ps : List Seen} {i : Nat}
    (h : ∀ p ∈ ps, i ≤ p.offset) :
    (groupsFrom opened ps).countP (fun g => decide (g.start < i)) ≤
      opened.countP (fun k => decide (k < i)) := by
  induction ps generalizing opened with
  | nil => exact Nat.zero_le _
  | cons p ps ih =>
    rw [List.forall_mem_cons] at h
    obtain ⟨side, j⟩ := p
    cases side with
    | opening =>
      have hj : ¬ decide (j < i) = true := by simpa using h.1
      have hopened := @ih (j :: opened) h.2
      rwa [List.countP_cons_of_neg (p := fun k => decide (k < i)) hj] at hopened
    | closing =>
      cases opened with
      | nil => exact ih h.2
      | cons k outer =>
        rw [groupsFrom, List.countP_cons, List.countP_cons]
        exact Nat.add_le_add_right (ih h.2) _

/-! ## How many groups are around a group -/

/-- The groups around a group start with parentheses that were open with its own. -/
theorem countP_inside_lt_peak {opened : List Nat} {ps : List Seen} (h : InOrder opened ps)
    {g : Group} (hg : g ∈ groupsFrom opened ps) :
    (groupsFrom opened ps).countP (fun outer => decide (g.Inside outer)) <
      peak opened.length ps := by
  induction ps generalizing opened with
  | nil => cases hg
  | cons p ps ih =>
    obtain ⟨side, j⟩ := p
    cases side with
    | opening => exact ih h.push hg
    | closing =>
      cases opened with
      | nil => exact Nat.lt_of_lt_of_le (ih h.pass hg) (Nat.le_max_right ..)
      | cons i outer =>
        rw [groupsFrom] at hg ⊢
        rw [peak, List.length_cons, Nat.add_sub_cancel]
        rcases List.mem_cons.1 hg with rfl | hg
        · -- All other groups close later, so those around this one are those that start before.
          have hself : ¬ decide (Group.Inside ⟨i, j⟩ ⟨i, j⟩) = true := by
            simp [Group.Inside]
          have hopened : ∀ p ∈ ps, i ≤ p.offset := fun p hp =>
            Nat.le_of_lt (h.opened_before i List.mem_cons_self p (List.mem_cons_of_mem _ hp))
          have hcount := calc
            (groupsFrom outer ps).countP (fun o => decide (Group.Inside ⟨i, j⟩ o))
              ≤ (groupsFrom outer ps).countP (fun o => decide (o.start < i)) :=
                List.countP_mono_left fun o _ ho => decide_eq_true (of_decide_eq_true ho).1
            _ ≤ outer.countP (fun k => decide (k < i)) := countP_start_lt_le hopened
            _ ≤ outer.length := List.countP_le_length
          rw [List.countP_cons_of_neg (p := fun o => decide (Group.Inside ⟨i, j⟩ o)) hself]
          exact Nat.lt_of_le_of_lt hcount (Nat.lt_of_lt_of_le (Nat.lt_succ_self _)
            (Nat.le_max_left ..))
        · -- The group closed here closes too early to be around another.
          have hnot : ¬ decide (g.Inside ⟨i, j⟩) = true := by
            intro hinside
            have hstop : g.stop < j := (of_decide_eq_true hinside).2
            exact Nat.lt_asymm hstop (h.lt_stop hg)
          rw [List.countP_cons_of_neg (p := fun o => decide (g.Inside o)) hnot]
          exact Nat.lt_of_lt_of_le (ih h.pop hg) (Nat.le_max_right ..)

/-- Of groups inside one another, all but the innermost are around it. -/
theorem length_le_countP_inside {gs chain : List Group} {g : Group}
    (hmem : ∀ outer ∈ chain, outer ∈ gs) (hinside : (g :: chain).Pairwise Group.Inside) :
    chain.length ≤ gs.countP fun outer => decide (g.Inside outer) := by
  rw [List.pairwise_cons] at hinside
  have hnodup : chain.Nodup := by
    refine hinside.2.imp ?_
    rintro a b hab rfl
    exact Nat.lt_irrefl _ hab.1
  have haround : chain ⊆ gs.filter fun outer => decide (g.Inside outer) := by
    intro outer houter
    exact List.mem_filter.2 ⟨hmem outer houter, decide_eq_true (hinside.1 outer houter)⟩
  rw [List.countP_eq_length_filter]
  exact (List.subperm_of_subset hnodup haround).length_le

/-! ## Groups that are open at once -/

/-- The parentheses that are open belong to groups inside one another, if all are closed. -/
theorem exists_nest_opened {opened : List Nat} {ps : List Seen} (h : InOrder opened ps)
    (hclosed : stackAfter opened ps = []) :
    ∃ chain : List Group, chain.map Group.start = opened ∧ chain.Pairwise Group.Inside ∧
      ∀ g ∈ chain, g ∈ groupsFrom opened ps := by
  induction ps generalizing opened with
  | nil => exact ⟨[], hclosed.symm, .nil, by simp⟩
  | cons p ps ih =>
    obtain ⟨side, j⟩ := p
    cases side with
    | opening =>
      -- The innermost group of the chain is the one opened here, which is not asked for.
      obtain ⟨chain, hstart, hinside, hmem⟩ := ih h.push hclosed
      refine ⟨chain.tail, ?_, hinside.tail, fun g hg => hmem g (List.mem_of_mem_tail hg)⟩
      rw [List.map_tail, hstart, List.tail_cons]
    | closing =>
      cases opened with
      | nil => exact ih h.pass hclosed
      | cons i outer =>
        obtain ⟨chain, hstart, hinside, hmem⟩ := ih h.pop hclosed
        refine ⟨⟨i, j⟩ :: chain, by rw [List.map_cons, hstart], List.pairwise_cons.2 ⟨?_, hinside⟩,
          ?_⟩
        · -- The others were opened before this one and are closed after it.
          intro g hg
          have hg' : g.start ∈ outer := hstart ▸ List.mem_map_of_mem hg
          exact ⟨(List.pairwise_cons.1 h.opened_sorted).1 _ hg', h.lt_stop (hmem g hg)⟩
        · rw [groupsFrom, List.forall_mem_cons]
          exact ⟨List.mem_cons_self, fun g hg => List.mem_cons_of_mem _ (hmem g hg)⟩

/-- There are as many groups inside one another as parentheses are ever open at once. -/
theorem exists_nest_peak {opened : List Nat} {ps : List Seen} (h : InOrder opened ps)
    (hclosed : stackAfter opened ps = []) :
    ∃ chain : List Group, chain.length = peak opened.length ps ∧ chain.Pairwise Group.Inside ∧
      ∀ g ∈ chain, g ∈ groupsFrom opened ps := by
  induction ps generalizing opened with
  | nil =>
    cases hclosed
    exact ⟨[], rfl, .nil, by simp⟩
  | cons p ps ih =>
    obtain ⟨side, j⟩ := p
    cases side with
    | opening => exact ih h.push hclosed
    | closing =>
      cases opened with
      | nil =>
        obtain ⟨chain, hlength, hchain⟩ := ih h.pass hclosed
        exact ⟨chain, by rw [hlength, peak, List.length_nil, Nat.zero_max], hchain⟩
      | cons i outer =>
        -- The most are open here, or only later.
        rcases Nat.le_total (peak outer.length ps) (outer.length + 1) with hle | hle
        · obtain ⟨chain, hstart, hchain⟩ := exists_nest_opened h hclosed
          have hlength := congrArg List.length hstart
          rw [List.length_map, List.length_cons] at hlength
          refine ⟨chain, ?_, hchain⟩
          rw [hlength, peak, List.length_cons, Nat.add_sub_cancel, Nat.max_eq_left hle]
        · obtain ⟨chain, hlength, hinside, hmem⟩ := ih h.pop hclosed
          refine ⟨chain, ?_, hinside, ?_⟩
          · rw [hlength, peak, List.length_cons, Nat.add_sub_cancel, Nat.max_eq_right hle]
          · rw [groupsFrom]
            exact fun g hg => List.mem_cons_of_mem _ (hmem g hg)

/-- Where every opening parenthesis has a partner, the most parentheses open at once are the
    most groups inside one another. -/
theorem isGreatest_nest_peak {cs : List Char} (hclosed : stackAfter [] (seen cs) = []) :
    IsGreatest {n | ∃ gs, Nest cs gs ∧ gs.length = n} (peak 0 (seen cs)) := by
  constructor
  · obtain ⟨chain, hlength, hinside, hmem⟩ := exists_nest_peak (.seen cs) hclosed
    exact ⟨chain, ⟨fun g hg => mem_groups_iff.1 (hmem g hg), hinside⟩, hlength⟩
  · rintro n ⟨gs, hnest, rfl⟩
    cases gs with
    | nil => exact Nat.zero_le _
    | cons g outer =>
      have hmem : ∀ o ∈ g :: outer, o ∈ groups cs := fun o ho =>
        mem_groups_iff.2 (hnest.matched o ho)
      rw [List.forall_mem_cons] at hmem
      exact Nat.lt_of_le_of_lt (length_le_countP_inside hmem.2 hnest.inside)
        (countP_inside_lt_peak (.seen cs) hmem.1)

theorem selectDepth_eq_peak {cs : List Char}
    (hselect : ∀ g ∈ groups cs, ∃ body, g.body cs = .ok body ∧ mentionsSelect body = true) :
    selectDepth cs = .ok (peak 0 (seen cs)) := by
  obtain ⟨n, hrun, hn⟩ := Nesting.run_peak (Nat.le_refl 0) hselect
  have hstart : Nesting.start.run cs (seen cs) = .ok n := hrun
  rw [List.length_nil, Nat.zero_max] at hn
  rw [selectDepth, hstart, ← hn]
  rfl

end Paren

/-! ## Subqueries around a subquery -/

namespace Subquery

open QueryLint.Text QueryLint.Paren

/-- The parentheses of a subquery. -/
def group (s : Subquery) : Group :=
  ⟨s.start, s.stop⟩

/-- Groups that all begin with `SELECT` all are subqueries. -/
theorem ofGroups_of_select {cs : List Char} {gs : List Group}
    (h : ∀ g ∈ gs, ∃ body, g.body cs = .ok body ∧ beginsWithSelect (trim body) = true) :
    ∃ ss, ofGroups cs gs = .ok ss ∧ ss.map group = gs := by
  induction gs with
  | nil => exact ⟨[], rfl, rfl⟩
  | cons g gs ih =>
    rw [List.forall_mem_cons] at h
    obtain ⟨⟨body, hbody, hselect⟩, h⟩ := h
    obtain ⟨ss, hss, rfl⟩ := ih h
    refine ⟨⟨g.start, g.stop, trim body⟩ :: ss, ?_, rfl⟩
    rw [ofGroups_cons hbody hss, if_pos hselect]

theorem level_eq (ss : List Subquery) (s : Subquery) :
    level ss s = 1 + (ss.map group).countP fun outer => decide (s.group.Inside outer) := by
  rw [level, List.countP_map]
  congr 1
  apply List.countP_congr
  intro outer _
  rw [Function.comp_apply, encloses, Bool.and_eq_true, decide_eq_true_iff, decide_eq_true_iff,
    decide_eq_true_iff]
  exact Iff.rfl

theorem foldl_max_le_iff {ns : List Nat} {b k : Nat} :
    ns.foldl max b ≤ k ↔ b ≤ k ∧ ∀ n ∈ ns, n ≤ k := by
  induction ns generalizing b with
  | nil => simp
  | cons n ns ih => rw [List.foldl_cons, ih, Nat.max_le, List.forall_mem_cons, and_assoc]

theorem deepest_le_iff {ss : List Subquery} {k : Nat} :
    deepest ss ≤ k ↔ ∀ g ∈ ss.map group,
      (ss.map group).countP (fun outer => decide (g.Inside outer)) < k := by
  simp only [deepest, foldl_max_le_iff, Nat.zero_le, true_and, List.forall_mem_map, level_eq,
    Nat.one_add_le_iff]

/-- The subqueries of a text in which every group is one, and every opening parenthesis has a
    partner, are nested as deep as parentheses are open at once. -/
theorem deepest_le_iff_peak_le {cs : List Char} {ss : List Subquery}
    (hss : ss.map group = groups cs) (hclosed : stackAfter [] (seen cs) = []) {k : Nat} :
    deepest ss ≤ k ↔ peak 0 (seen cs) ≤ k := by
  rw [deepest_le_iff, hss]
  constructor
  · intro h
    obtain ⟨chain, hlength, hinside, hmem⟩ := exists_nest_peak (.seen cs) hclosed
    rw [List.length_nil] at hlength
    rw [← hlength]
    cases chain with
    | nil => exact Nat.zero_le k
    | cons g outer =>
      -- The innermost group has all the others around it.
      rw [List.forall_mem_cons] at hmem
      exact Nat.lt_of_le_of_lt (length_le_countP_inside hmem.2 hinside) (h g hmem.1)
  · intro h g hg
    exact Nat.lt_of_lt_of_le (countP_inside_lt_peak (.seen cs) hg) h

/-- No two violations have the same label. -/
theorem Violation.issue_inj {v w : Violation} (h : v.diagnostic.issue = w.diagnostic.issue) :
    v = w := by
  revert h
  cases v <;> cases w <;> decide

theorem tooDeep_not_mem (s : Subquery) : .tooDeep ∉ s.ownViolations := by
  simp [ownViolations, List.mem_ite_nil_left]

/-- The nesting is reported by this label, and nothing else is. -/
theorem reports_tooDeep_iff (ss : List Subquery) :
    (∃ d ∈ (violationsOf ss).map Violation.diagnostic, d.issue = "Excessive subquery nesting") ↔
      recommendedNesting < deepest ss := by
  refine (exists_issue_iff (v := .tooDeep) (fun _ => Violation.issue_inj) _).trans ?_
  rw [violationsOf, List.mem_append, List.mem_ite_nil_left, Nat.not_le]
  constructor
  · rintro (hown | ⟨hdeep, -⟩)
    · obtain ⟨s, -, hs⟩ := List.mem_flatMap.1 hown
      exact absurd hs (tooDeep_not_mem s)
    · exact hdeep
  · intro hdeep
    exact .inr ⟨hdeep, List.mem_singleton.2 rfl⟩

end Subquery

/-- The nesting is reported by this label, and nothing else is. -/
theorem Structure.reports_tooDeep_iff {cs : List Char} {limit depth : Nat} {vs : List Violation}
    (hdepth : Paren.selectDepth cs = .ok depth) (hvs : violations cs limit = .ok vs) :
    (∃ d ∈ vs.map Violation.diagnostic, d.issue = "Subquery nested too deep") ↔ limit < depth := by
  rw [violations, hdepth] at hvs
  cases hvs
  constructor
  · rintro ⟨d, hd, hissue⟩
    obtain ⟨v, hv, rfl⟩ := List.mem_map.1 hd
    simp only [List.mem_append, List.mem_ite_nil_left, List.mem_singleton] at hv
    rcases hv with (⟨-, rfl⟩ | ⟨-, rfl⟩) | ⟨hdeep, -⟩
    · exact absurd hissue (by decide)
    · exact absurd hissue (by decide)
    · exact Nat.not_le.1 hdeep
  · intro h
    refine ⟨(Violation.tooDeep limit).diagnostic,
      List.mem_map_of_mem (List.mem_append_right _ ?_), rfl⟩
    exact List.mem_ite_nil_left.2 ⟨Nat.not_le.2 h, List.mem_singleton.2 rfl⟩

namespace Paren

open QueryLint.Text

/-- The two nesting checks agree where every opening parenthesis has a partner and every group
    begins with `SELECT`, in any case and after blanks: with four levels allowed, both report the
    nesting exactly if the nesting depth is more than four, and that depth is the greatest
    number of groups inside one another. -/
theorem nesting_checks_agree {sql : String}
    (hmatched : ∀ i, ⟨.opening, i⟩ ∈ seen sql.toList → ∃ j, Group.Matched sql.toList ⟨i, j⟩)
    (hselect : ∀ g : Group, g.Matched sql.toList →
      ∃ body, g.body sql.toList = .ok body ∧ beginsWithSelect (trim body) = true) :
    ∃ depth ofSubqueries ofStructure,
      selectDepth sql.toList = .ok depth ∧ Subquery.diagnostics sql = .ok ofSubqueries ∧
      Structure.diagnostics sql 4 = .ok ofStructure ∧
      ((∃ d ∈ ofSubqueries, d.issue = "Excessive subquery nesting") ↔ 4 < depth) ∧
      ((∃ d ∈ ofStructure, d.issue = "Subquery nested too deep") ↔ 4 < depth) ∧
      IsGreatest {n | ∃ gs, Nest sql.toList gs ∧ gs.length = n} depth := by
  have hclosed := stackAfter_seen_eq_nil hmatched
  have hgroups : ∀ g ∈ groups sql.toList,
      ∃ body, g.body sql.toList = .ok body ∧ beginsWithSelect (trim body) = true :=
    fun g hg => hselect g (mem_groups_iff.1 hg)
  have hdepth : selectDepth sql.toList = .ok (peak 0 (seen sql.toList)) := by
    apply selectDepth_eq_peak
    intro g hg
    obtain ⟨body, hbody, hbegins⟩ := hgroups g hg
    exact ⟨body, hbody, mentionsSelect_of_trim hbegins⟩
  obtain ⟨ss, hall, hss⟩ := Subquery.ofGroups_of_select hgroups
  obtain ⟨vs, hvs, hstructure⟩ := Structure.diagnostics_ok sql 4
  have hsubqueries : Subquery.diagnostics sql =
      .ok ((Subquery.violationsOf ss).map Subquery.Violation.diagnostic) := by
    rw [Subquery.diagnostics, Subquery.all, hall]
    rfl
  refine ⟨_, _, _, hdepth, hsubqueries, hstructure, ?_, Structure.reports_tooDeep_iff hdepth hvs,
    isGreatest_nest_peak hclosed⟩
  rw [Subquery.reports_tooDeep_iff, ← Nat.not_le, ← Nat.not_le,
    Subquery.deepest_le_iff_peak_le hss hclosed, Subquery.recommendedNesting]

/-- Five levels beside a group of one, a parenthesis in a string, and one that closes nothing. -/
theorem nesting_checks_agree_five :
    let sql := "SELECT (SELECT 1), (select (SELECT (SELECT ( SELECT (SELECT 'é('))))) )"
    (∀ i, ⟨.opening, i⟩ ∈ seen sql.toList → ∃ j, Group.Matched sql.toList ⟨i, j⟩) ∧
    (∀ g : Group, g.Matched sql.toList →
      ∃ body, g.body sql.toList = .ok body ∧ beginsWithSelect (trim body) = true) ∧
    (∃ ds, Subquery.diagnostics sql = .ok ds ∧
      ∃ d ∈ ds, d.issue = "Excessive subquery nesting") ∧
    IsGreatest {n | ∃ gs, Nest sql.toList gs ∧ gs.length = n} 5 := by
  intro sql
  have hmatched : ∀ i, ⟨.opening, i⟩ ∈ seen sql.toList →
      ∃ j, Group.Matched sql.toList ⟨i, j⟩ := by
    have hstarts : ∀ p ∈ seen sql.toList, p.side = .opening →
        ∃ g ∈ groups sql.toList, g.start = p.offset := by decide +kernel
    intro i hi
    obtain ⟨⟨i', j⟩, hg, rfl⟩ := hstarts _ hi rfl
    exact ⟨j, mem_groups_iff.1 hg⟩
  have hselect : ∀ g : Group, g.Matched sql.toList →
      ∃ body, g.body sql.toList = .ok body ∧ beginsWithSelect (trim body) = true := by
    have hbodies : ∀ g ∈ groups sql.toList,
        (g.body sql.toList).toOption.any (fun body => beginsWithSelect (trim body)) = true := by
      decide +kernel
    intro g hg
    have hbody := hbodies g (mem_groups_iff.2 hg)
    cases hresult : g.body sql.toList with
    | error crash =>
      rw [hresult] at hbody
      cases hbody
    | ok body =>
      rw [hresult] at hbody
      exact ⟨body, rfl, hbody⟩
  obtain ⟨depth, ds, _, hdepth, hds, -, hreport, -, hgreatest⟩ :=
    nesting_checks_agree hmatched hselect
  have hfive : selectDepth sql.toList = .ok 5 := by decide +kernel
  rw [hfive] at hdepth
  cases hdepth
  exact ⟨hmatched, hselect, ⟨ds, hds, hreport.2 (by decide)⟩, hgreatest⟩

end Paren

end QueryLint

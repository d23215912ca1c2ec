/-
  QueryLint.Proofs.NestingFormula

  A closed form of the nesting counter. Its running maximum is lowered by every group without
  `SELECT` that closes, whichever group raised it, so what is left of the depth reached at some
  point is that depth less the number of such groups closed from there on (`score`). The
  counter ends with the greatest of these (`Nesting.run_highest`), since taking one off a maximum
  takes it off every candidate, and it never takes one off zero (`Nesting.run_depth_le`).

  Said by positions, the groups open at a cut of the text count if they are never closed or hold
  `SELECT`, and those without `SELECT` that start later are taken off (`Cut.countAt_eq_score`).
  `selectDepth_closed_form` puts this together.
-/
import QueryLint.Proofs.LiveParens
import QueryLint.Proofs.NestingDepth
import Mathlib.Data.Set.Card

namespace QueryLint.Paren

open QueryLint.Text

/-! ## What becomes of an opening parenthesis -/

/-- The offsets of the opening parentheses. -/
def openings (ps : List Seen) : List Nat :=
  ps.filterMap fun p => if p.side = .opening then some p.offset else none

theorem mem_openings {ps : List Seen} {i : Nat} : i ∈ openings ps ↔ ⟨.opening, i⟩ ∈ ps := by
  rw [openings, List.mem_filterMap]
  constructor
  · rintro ⟨⟨side, offset⟩, hp, hi⟩
    split at hi
    · rename_i hside
      cases hi
      cases hside
      exact hp
    · cases hi
  · intro hp
    exact ⟨_, hp, rfl⟩

theorem nodup_openings {ps : List Seen} (h : ps.Pairwise fun p q => p.offset < q.offset) :
    (openings ps).Nodup := by
  refine List.pairwise_filterMap.2 (h.imp ?_)
  intro p q hpq i hi k hk
  split at hi
  · cases hi
    split at hk
    · cases hk
      exact Nat.ne_of_lt hpq
    · cases hk
  · cases hi

/-- Every opening parenthesis is still open or starts a group, and never both. -/
theorem perm_stackAfter_starts (opened : List Nat) (ps : List Seen) :
    (stackAfter opened ps ++ (groupsFrom opened ps).map Group.start).Perm
      (opened ++ openings ps) := by
  induction ps generalizing opened with
  | nil => exact .refl _
  | cons p ps ih =>
    obtain ⟨side, j⟩ := p
    cases side with
    | opening => exact (ih (j :: opened)).trans List.perm_middle.symm
    | closing =>
      cases opened with
      | nil => exact ih []
      | cons i outer =>
        rw [groupsFrom, List.map_cons]
        exact List.perm_middle.trans ((ih outer).cons i)

theorem nodup_starts (cs : List Char) : ((groups cs).map Group.start).Nodup := by
  have hperm := perm_stackAfter_starts [] (seen cs)
  have hnodup := hperm.nodup_iff.2 (nodup_openings (seen_sorted cs))
  exact hnodup.of_append_right

/-- A parenthesis has one partner. -/
theorem Group.Matched.stop_unique {cs : List Char} {i j k : Nat} (hj : Group.Matched cs ⟨i, j⟩)
    (hk : Group.Matched cs ⟨i, k⟩) : j = k := by
  have heq := List.inj_on_of_nodup_map (nodup_starts cs) (mem_groups_iff.2 hj)
    (mem_groups_iff.2 hk) rfl
  exact congrArg Group.stop heq

/-! ## The running maximum -/

/-- Whether a group does not mention `SELECT`. -/
def Group.isPlain (cs : List Char) (g : Group) : Bool :=
  (g.body cs).toOption.any fun body => !mentionsSelect body

/-- What is left of the depth once the parentheses that follow are read: each plain group they
    close takes one off. -/
def score (cs : List Char) (opened : List Nat) (ps : List Seen) : Int :=
  opened.length - (groupsFrom opened ps).countP (Group.isPlain cs)

/-- The greatest that is left of a depth, from here on. -/
def bestScore (cs : List Char) (opened : List Nat) : List Seen → Int
  | [] => score cs opened []
  | p :: ps => max (score cs opened (p :: ps)) (bestScore cs (stackAfter opened [p]) ps)

theorem score_le_bestScore (cs : List Char) (opened : List Nat) (ps : List Seen) :
    score cs opened ps ≤ bestScore cs opened ps := by
  cases ps with
  | nil => exact le_refl _
  | cons p ps => exact le_max_left ..

/-- The greatest is that of all points where what is left to be read is cut off. -/
theorem isGreatest_bestScore (cs : List Char) (opened : List Nat) (ps : List Seen) :
    IsGreatest {v | ∃ before after, ps = before ++ after ∧
      score cs (stackAfter opened before) after = v} (bestScore cs opened ps) := by
  induction ps generalizing opened with
  | nil =>
    constructor
    · exact ⟨[], [], rfl, rfl⟩
    · rintro v ⟨before, after, hnil, rfl⟩
      obtain ⟨rfl, rfl⟩ := List.append_eq_nil_iff.1 hnil.symm
      exact le_refl _
  | cons p ps ih =>
    obtain ⟨⟨before, after, hsplit, hbest⟩, hupper⟩ := ih (stackAfter opened [p])
    constructor
    · rcases max_choice (score cs opened (p :: ps)) (bestScore cs (stackAfter opened [p]) ps)
        with hmax | hmax
      · exact ⟨[], p :: ps, rfl, hmax.symm⟩
      · refine ⟨p :: before, after, by rw [hsplit, List.cons_append], ?_⟩
        rw [bestScore, hmax, ← hbest, ← List.singleton_append, stackAfter_append]
    · rintro v ⟨before, after, hsplit, rfl⟩
      cases before with
      | nil =>
        cases hsplit
        exact le_max_left ..
      | cons q before =>
        rw [List.cons_append, List.cons.injEq] at hsplit
        obtain ⟨rfl, hsplit⟩ := hsplit
        rw [← List.singleton_append, stackAfter_append]
        exact le_max_of_le_right (hupper ⟨before, after, hsplit, rfl⟩)

/-- What a plain group takes off the running maximum as it is closed, and no other does. -/
theorem Nesting.step_closing_isPlain {cs body : List Char} {i j highest : Nat} {outer : List Nat}
    (hbody : Group.body ⟨i, j⟩ cs = .ok body) :
    Nesting.step cs ⟨i :: outer, outer.length + 1, highest⟩ ⟨.closing, j⟩ =
      .ok ⟨outer, outer.length, highest - if Group.isPlain cs ⟨i, j⟩ = true then 1 else 0⟩ := by
  have hplain : Group.isPlain cs ⟨i, j⟩ = !mentionsSelect body := by
    rw [Group.isPlain, hbody]
    rfl
  have hbetween : between cs i j = .ok body := hbody
  rw [Nesting.step_closing hbetween, hplain]
  cases mentionsSelect body with
  | true => rfl
  | false => rfl

/-- The running maximum ends with the greatest that is left of a depth reached on the way, or
    with what is left of the maximum before. -/
theorem Nesting.run_highest {cs : List Char} {ps : List Seen} {opened : List Nat} {highest : Nat}
    (hhighest : opened.length ≤ highest)
    (hbody : ∀ g ∈ groupsFrom opened ps, ∃ body, g.body cs = .ok body) :
    ∃ n, Nesting.run cs ⟨opened, opened.length, highest⟩ ps = .ok n ∧
      (n.highest : Int) = max (highest - (groupsFrom opened ps).countP (Group.isPlain cs) : Int)
        (bestScore cs opened ps) := by
  induction ps generalizing opened highest with
  | nil =>
    refine ⟨_, rfl, ?_⟩
    simp only [groupsFrom, bestScore, score, List.countP_nil]
    omega
  | cons p ps ih =>
    obtain ⟨side, j⟩ := p
    cases side with
    | opening =>
      obtain ⟨n, hrun, hn⟩ := @ih (j :: opened) _ (Nat.le_max_right highest _) hbody
      refine ⟨n, hrun, ?_⟩
      -- The new depth is a candidate of its own, which the rest covers.
      have hscore := score_le_bestScore cs (j :: opened) ps
      rw [hn]
      simp only [groupsFrom, bestScore, score, stackAfter, List.length_cons] at hscore ⊢
      omega
    | closing =>
      cases opened with
      | nil =>
        obtain ⟨n, hrun, hn⟩ := ih hhighest hbody
        refine ⟨n, hrun, ?_⟩
        have hscore := score_le_bestScore cs [] ps
        rw [hn]
        simp only [groupsFrom, bestScore, score, stackAfter, List.tail_nil] at hscore ⊢
        omega
      | cons i outer =>
        rw [groupsFrom, List.forall_mem_cons] at hbody
        obtain ⟨body, hhere⟩ := hbody.1
        rw [List.length_cons] at hhighest
        -- The maximum is at least the depth, so one can be taken off it.
        have hlower : outer.length ≤
            highest - if Group.isPlain cs ⟨i, j⟩ = true then 1 else 0 := by
          split <;> omega
        obtain ⟨n, hrun, hn⟩ := ih hlower hbody.2
        refine ⟨n, ?_, ?_⟩
        · rw [Nesting.run, List.length_cons, Nesting.step_closing_isPlain hhere]
          exact hrun
        · rw [hn]
          simp only [groupsFrom, bestScore, score, stackAfter, List.tail_cons, List.length_cons,
            List.countP_cons]
          split <;> omega

theorem selectDepth_eq_bestScore (cs : List Char) :
    ∃ depth, selectDepth cs = .ok depth ∧ (depth : Int) = bestScore cs [] (seen cs) := by
  obtain ⟨n, hrun, hn⟩ := Nesting.run_highest (Nat.le_refl 0)
    fun g (hg : g ∈ groupsFrom [] (seen cs)) => Group.body_ok hg
  have hstart : Nesting.start.run cs (seen cs) = .ok n := hrun
  refine ⟨n.highest, by rw [selectDepth, hstart]; rfl, ?_⟩
  have hscore := score_le_bestScore cs [] (seen cs)
  rw [hn, max_eq_right]
  simpa [score] using hscore

/-! ## The maximum is never below the depth -/

theorem Nesting.step_depth_le {cs : List Char} {n n' : Nesting} {p : Seen}
    (hstep : n.step cs p = .ok n') (h : n.depth ≤ n.highest) : n'.depth ≤ n'.highest := by
  obtain ⟨side, j⟩ := p
  obtain ⟨opened, depth, highest⟩ := n
  cases side with
  | opening =>
    cases hstep
    exact Nat.le_max_right ..
  | closing =>
    cases opened with
    | nil =>
      cases hstep
      exact h
    | cons i outer =>
      cases depth with
      | zero => cases hstep
      | succ depth =>
        -- Both go down by one at most, and the depth does.
        cases hbody : between cs i j with
        | error crash => simp [Nesting.step, levelUp, hbody, bind, Except.bind] at hstep
        | ok body =>
          simp only [Nesting.step, levelUp, hbody, bind, Except.bind, pure, Except.pure] at hstep
          cases hstep
          simp only at h ⊢
          split <;> omega

/-- On the way the running maximum is never below the depth. -/
theorem Nesting.run_depth_le {cs : List Char} {n n' : Nesting} {ps : List Seen}
    (hrun : n.run cs ps = .ok n') (h : n.depth ≤ n.highest) : n'.depth ≤ n'.highest := by
  induction ps generalizing n with
  | nil =>
    cases hrun
    exact h
  | cons p ps ih =>
    rw [Nesting.run] at hrun
    cases hstep : n.step cs p with
    | error crash =>
      rw [hstep] at hrun
      cases hrun
    | ok next =>
      rw [hstep] at hrun
      exact ih hrun (Nesting.step_depth_le hstep h)

/-! ## Cuts of the text -/

/-- The group that starts at this offset is closed, and `SELECT` stands in it in any case. -/
def SelectGroup (cs : List Char) (i : Nat) : Prop :=
  ∃ j body, Group.Matched cs ⟨i, j⟩ ∧ TextBetween cs i j body ∧
    "SELECT".toList <:+: upperAscii body

/-- The group that starts at this offset is closed, and `SELECT` does not stand in it. -/
def PlainGroup (cs : List Char) (i : Nat) : Prop :=
  ∃ j body, Group.Matched cs ⟨i, j⟩ ∧ TextBetween cs i j body ∧
    ¬ "SELECT".toList <:+: upperAscii body

/-- The parenthesis at this offset opens a group that is never closed. -/
def NeverClosed (cs : List Char) (i : Nat) : Prop :=
  Live cs ⟨.opening, i⟩ ∧ ∀ j, ¬ Group.Matched cs ⟨i, j⟩

/-- The group that starts at offset `i` is open where the text is cut at offset `k`. -/
def OpenAt (cs : List Char) (k i : Nat) : Prop :=
  Live cs ⟨.opening, i⟩ ∧ i < k ∧ ∀ j, Group.Matched cs ⟨i, j⟩ → k ≤ j

/-- The groups open at a cut that hold `SELECT` or are never closed, less the plain ones that
    start after it. -/
noncomputable def countAt (cs : List Char) (k : Nat) : Int :=
  ({i | OpenAt cs k i ∧ (SelectGroup cs i ∨ NeverClosed cs i)}.ncard : Int) -
    {i | PlainGroup cs i ∧ k ≤ i}.ncard

theorem plainGroup_iff {cs : List Char} {i : Nat} :
    PlainGroup cs i ↔ ∃ g ∈ groups cs, g.isPlain cs = true ∧ g.start = i := by
  have hword : ∀ body : List Char,
      ¬ "SELECT".toList <:+: upperAscii body ↔ (!mentionsSelect body) = true := by
    intro body
    rw [Bool.not_eq_true', ← Bool.not_eq_true, mentionsSelect, hasInfix_iff]
    rfl
  constructor
  · rintro ⟨j, body, hmatched, htext, hplain⟩
    refine ⟨⟨i, j⟩, mem_groups_iff.2 hmatched, ?_, rfl⟩
    rw [Group.isPlain, hmatched.body_eq_ok_iff.2 htext]
    exact (hword body).1 hplain
  · rintro ⟨g, hg, hplain, rfl⟩
    obtain ⟨body, hbody⟩ := Group.body_ok hg
    rw [mem_groups_iff] at hg
    rw [Group.isPlain, hbody] at hplain
    exact ⟨g.stop, body, hg, hg.body_eq_ok_iff.1 hbody, (hword body).2 hplain⟩

/-- A group that is not plain holds `SELECT` or is never closed. -/
theorem select_or_neverClosed_iff {cs : List Char} {i : Nat} (hlive : Live cs ⟨.opening, i⟩) :
    SelectGroup cs i ∨ NeverClosed cs i ↔ ¬ PlainGroup cs i := by
  constructor
  · rintro (⟨j, body, hj, htext, hselect⟩ | ⟨-, hnever⟩) ⟨k, other, hk, hother, hplain⟩
    · cases hj.stop_unique hk
      cases htext.between_eq.symm.trans hother.between_eq
      exact hplain hselect
    · exact hnever k hk
  · intro hplain
    by_cases hclosed : ∃ j, Group.Matched cs ⟨i, j⟩
    · obtain ⟨j, hj⟩ := hclosed
      obtain ⟨body, htext⟩ := hj.exists_textBetween
      by_cases hselect : "SELECT".toList <:+: upperAscii body
      · exact .inl ⟨j, body, hj, htext, hselect⟩
      · exact absurd ⟨j, body, hj, htext, hselect⟩ hplain
    · exact .inr ⟨hlive, not_exists.1 hclosed⟩

/-- The text is cut at an offset, and the parentheses seen with it. -/
structure Cut (cs : List Char) (k : Nat) (before after : List Seen) : Prop where
  seen_eq : seen cs = before ++ after
  before_lt : ∀ p ∈ before, p.offset < k
  le_after : ∀ p ∈ after, k ≤ p.offset

/-- Where a text is cut, so are the parentheses seen. -/
theorem exists_cut (a b : List Char) :
    ∃ before after, Cut (a ++ b) (utf8Size a) before after := by
  refine ⟨_, _, seenFrom_append .start 0 a b, ?_, ?_⟩
  · intro p hp
    obtain ⟨x, y, rfl, hoffset⟩ := mem_seenFrom hp
    have hpos := p.side.char.utf8Size_pos
    rw [utf8Size_append, utf8Size_cons]
    omega
  · intro p hp
    obtain ⟨x, y, -, hoffset⟩ := mem_seenFrom hp
    omega

/-- Where the parentheses seen are cut, so is the text. -/
theorem exists_text_cut {cs : List Char} {before after : List Seen}
    (hseen : seen cs = before ++ after) :
    ∃ a b, cs = a ++ b ∧ Cut cs (utf8Size a) before after := by
  have hsorted := seen_sorted cs
  rw [hseen, List.pairwise_append] at hsorted
  obtain ⟨-, hafter, hbefore⟩ := hsorted
  cases after with
  | nil =>
    refine ⟨cs, [], (List.append_nil cs).symm, hseen, ?_, by simp⟩
    intro p hp
    obtain ⟨x, y, htext, hoffset⟩ := mem_seen (hseen ▸ List.mem_append_left _ hp)
    have hpos := p.side.char.utf8Size_pos
    rw [htext, utf8Size_append, utf8Size_cons]
    omega
  | cons q after =>
    -- The text is cut right before the first parenthesis that is left.
    have hq : q ∈ seen cs := by simp [hseen]
    obtain ⟨a, b, htext, hoffset⟩ := mem_seen hq
    refine ⟨a, _, htext, hseen, ?_, ?_⟩
    · intro p hp
      rw [← hoffset]
      exact hbefore p hp q List.mem_cons_self
    · intro p hp
      rw [← hoffset]
      rcases List.mem_cons.1 hp with rfl | hp
      · exact Nat.le_refl _
      · exact Nat.le_of_lt ((List.pairwise_cons.1 hafter).1 p hp)

theorem ncard_mem {is : List Nat} (h : is.Nodup) : {i | i ∈ is}.ncard = is.length := by
  rw [← List.toFinset_card_of_nodup h, ← Set.ncard_coe_finset, List.coe_toFinset]

namespace Cut

variable {cs : List Char} {k : Nat} {before after : List Seen}

theorem groups_eq (h : Cut cs k before after) :
    groups cs = groupsFrom [] before ++ groupsFrom (stackAfter [] before) after := by
  rw [groups, h.seen_eq, groupsFrom_append]

/-- What is open before the cut is not closed there. -/
theorem nodup_opened (h : Cut cs k before after) :
    (stackAfter [] before ++ (groupsFrom [] before).map Group.start).Nodup := by
  have hsorted := seen_sorted cs
  rw [h.seen_eq, List.pairwise_append] at hsorted
  exact (perm_stackAfter_starts [] before).nodup_iff.2 (nodup_openings hsorted.1)

/-- The groups open at the cut are those on the stack. -/
theorem openAt_iff (h : Cut cs k before after) {i : Nat} :
    OpenAt cs k i ↔ i ∈ stackAfter [] before := by
  have hperm := perm_stackAfter_starts [] before
  constructor
  · rintro ⟨hlive, hlt, hclosed⟩
    rw [← mem_seen_iff, h.seen_eq, List.mem_append] at hlive
    rcases hlive with hlive | hlive
    · have hmem := hperm.mem_iff.2 (mem_openings.2 hlive)
      rcases List.mem_append.1 hmem with hopen | hstart
      · exact hopen
      · -- A group closed before the cut is not open there.
        obtain ⟨g, hg, rfl⟩ := List.mem_map.1 hstart
        have hmatched : g.Matched cs := by
          rw [← mem_groups_iff, h.groups_eq]
          exact List.mem_append_left _ hg
        have hle := hclosed g.stop hmatched
        exact absurd (h.before_lt _ (closing_mem_of_mem_groupsFrom hg)) (Nat.not_lt.2 hle)
    · exact absurd (h.le_after _ hlive) (Nat.not_le.2 hlt)
  · intro hopen
    have hmem := mem_openings.1 (hperm.mem_iff.1 (List.mem_append_left _ hopen))
    refine ⟨?_, h.before_lt _ hmem, ?_⟩
    · rw [← mem_seen_iff, h.seen_eq]
      exact List.mem_append_left _ hmem
    · intro j hj
      rw [← mem_groups_iff, h.groups_eq, List.mem_append] at hj
      rcases hj with hj | hj
      · have hstart : i ∈ (groupsFrom [] before).map Group.start := List.mem_map_of_mem hj
        exact absurd hstart ((List.nodup_append.1 h.nodup_opened).2.2 i hopen i · rfl)
      · exact h.le_after _ (closing_mem_of_mem_groupsFrom hj)

/-- The plain groups closed after the cut are those open at it and those that start after it. -/
theorem plain_iff (h : Cut cs k before after) {i : Nat} :
    PlainGroup cs i ∧ (i ∈ stackAfter [] before ∨ k ≤ i) ↔
      i ∈ ((groupsFrom (stackAfter [] before) after).filter (Group.isPlain cs)).map
        Group.start := by
  rw [plainGroup_iff, h.groups_eq, List.mem_map]
  simp only [List.mem_filter, List.mem_append]
  constructor
  · rintro ⟨⟨g, hg | hg, hplain, rfl⟩, hi⟩
    · -- A group closed before the cut starts before it and is no longer open.
      have hstart : g.start ∈ (groupsFrom [] before).map Group.start := List.mem_map_of_mem hg
      have hmem := (perm_stackAfter_starts [] before).mem_iff.1 (List.mem_append_right _ hstart)
      have hlt := h.before_lt _ (mem_openings.1 hmem)
      rcases hi with hi | hi
      · exact absurd hstart ((List.nodup_append.1 h.nodup_opened).2.2 _ hi _ · rfl)
      · exact absurd hlt (Nat.not_lt.2 hi)
    · exact ⟨g, ⟨hg, hplain⟩, rfl⟩
  · rintro ⟨g, ⟨hg, hplain⟩, rfl⟩
    refine ⟨⟨g, .inr hg, hplain, rfl⟩, ?_⟩
    have hperm := perm_stackAfter_starts (stackAfter [] before) after
    have hmem := hperm.mem_iff.1 (List.mem_append_right _ (List.mem_map_of_mem hg))
    rcases List.mem_append.1 hmem with hopen | hopen
    · exact .inl hopen
    · exact .inr (h.le_after _ (mem_openings.1 hopen))

/-- What is counted at a cut is what is left of the depth there. -/
theorem countAt_eq_score (h : Cut cs k before after) :
    countAt cs k = score cs (stackAfter [] before) after := by
  let opened := {i | i ∈ stackAfter [] before}
  let plain := {i | PlainGroup cs i}
  let plainLater := {i | PlainGroup cs i ∧ k ≤ i}
  let plainClosed := ((groupsFrom (stackAfter [] before) after).filter (Group.isPlain cs)).map
    Group.start
  have hcounted : {i | OpenAt cs k i ∧ (SelectGroup cs i ∨ NeverClosed cs i)} =
      opened \ plain := by
    ext i
    constructor
    · rintro ⟨hopen, hcounts⟩
      exact ⟨h.openAt_iff.1 hopen, (select_or_neverClosed_iff hopen.1).1 hcounts⟩
    · rintro ⟨hopen, hplain⟩
      have hopenAt := h.openAt_iff.2 hopen
      exact ⟨hopenAt, (select_or_neverClosed_iff hopenAt.1).2 hplain⟩
  -- The plain groups closed after the cut are open at it, or start later.
  have hunion : opened ∩ plain ∪ plainLater = {i | i ∈ plainClosed} := by
    ext i
    show _ ↔ i ∈ plainClosed
    rw [← h.plain_iff, and_or_left, and_comm (b := i ∈ _)]
    rfl
  have hdisjoint : Disjoint (opened ∩ plain) plainLater := by
    rw [Set.disjoint_left]
    rintro i ⟨hopen, -⟩ ⟨-, hle⟩
    exact absurd (h.openAt_iff.2 hopen).2.1 (Nat.not_lt.2 hle)
  have hfinite : opened.Finite := List.finite_toSet _
  have hlater : plainLater.Finite :=
    (List.finite_toSet plainClosed).subset (hunion ▸ Set.subset_union_right)
  have hopened : opened.ncard = (stackAfter [] before).length :=
    ncard_mem h.nodup_opened.of_append_left
  have hclosed : {i | i ∈ plainClosed}.ncard =
      (groupsFrom (stackAfter [] before) after).countP (Group.isPlain cs) := by
    have hnodup := nodup_starts cs
    rw [h.groups_eq, List.map_append] at hnodup
    rw [ncard_mem (hnodup.of_append_right.sublist (List.filter_sublist.map _)), List.length_map,
      List.countP_eq_length_filter]
  have hsplit := Set.ncard_inter_add_ncard_sdiff_eq_ncard opened plain hfinite
  have hsum := Set.ncard_union_eq hdisjoint (hfinite.inter_of_left plain) hlater
  rw [hunion, hclosed] at hsum
  rw [countAt, score, hcounted]
  show ((opened \ plain).ncard : Int) - plainLater.ncard = _
  omega

end Cut

/-- The nesting depth is the greatest of what is counted at the cuts of the text, both ends
    included: the groups open there that hold `SELECT` or are never closed, less the plain ones
    that start later. On the way the running maximum is never below the depth, so where a group
    closes there is one to take off. -/
theorem selectDepth_closed_form (cs : List Char) :
    ∃ depth, selectDepth cs = .ok depth ∧
      IsGreatest {v | ∃ a b, cs = a ++ b ∧ countAt cs (utf8Size a) = v} (depth : Int) ∧
      ∀ before after, seen cs = before ++ after →
        ∃ n, Nesting.start.run cs before = .ok n ∧ n.depth ≤ n.highest ∧
          ∀ j rest i outer, after = ⟨.closing, j⟩ :: rest → n.opened = i :: outer →
            1 ≤ n.highest := by
  obtain ⟨depth, hdepth, hbest⟩ := selectDepth_eq_bestScore cs
  obtain ⟨⟨before, after, hseen, hscore⟩, hupper⟩ := isGreatest_bestScore cs [] (seen cs)
  refine ⟨depth, hdepth, ⟨?_, ?_⟩, ?_⟩
  · obtain ⟨a, b, htext, hcut⟩ := exists_text_cut hseen
    exact ⟨a, b, htext, by rw [hcut.countAt_eq_score, hscore, hbest]⟩
  · rintro v ⟨a, b, rfl, rfl⟩
    obtain ⟨before, after, hcut⟩ := exists_cut a b
    rw [hbest, hcut.countAt_eq_score]
    exact hupper ⟨before, after, hcut.seen_eq, rfl⟩
  · intro before after hseen
    have hsplit : seen cs = [] ++ before ++ after := hseen
    obtain ⟨n, hrun, hsound⟩ := Nesting.run_sound hsplit Nesting.start_sound
    have hle := Nesting.run_depth_le hrun (Nat.le_refl 0)
    refine ⟨n, hrun, hle, ?_⟩
    rintro j rest i outer - hopened
    have hdepth := hsound.depth_eq
    rw [hopened, List.length_cons] at hdepth
    omega

-- Two plain groups that start after the nested ones take off what those reached.
example : selectDepth "(SELECT (SELECT 1)) (a) (b)".toList = .ok 0 := by decide +kernel

end QueryLint.Paren

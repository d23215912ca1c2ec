/-
  QueryLint.Proofs.OutlineChecks

  The checks of raw query text depend on its outline alone. The parentheses a scan sees, the
  groups they make and the text inside a group are the same for a text and for its outline,
  with ranks in the stead of offsets (`seen_outline`, `groups_outline`, `between_outline`), and
  so are the nesting depth (`selectDepth_outline`) and what is wrong with subqueries
  (`Subquery.diagnostics_outline`).
-/
import QueryLint.Extended.Subquery
import QueryLint.Proofs.Outline
import QueryLint.Structure

namespace QueryLint.Paren

open QueryLint.Text

/-! ## The parentheses of an outline -/

/-- A parenthesis with another offset. -/
def Seen.relabel (f : Nat → Nat) (p : Seen) : Seen :=
  ⟨p.side, f p.offset⟩

/-- A group with other offsets. -/
def Group.relabel (f : Nat → Nat) (g : Group) : Group :=
  ⟨f g.start, f g.stop⟩

/-- The scan right before the character of a mark. -/
def Scan.upTo (s : Scan) (m : Mark) : Scan :=
  if m.gap then s.step ' ' else s

/-- The parentheses a scan sees in an outline whose first mark has rank `i`. -/
def seenInFrom (s : Scan) (i : Nat) : List Mark → List Seen
  | [] => []
  | m :: ms =>
    let here := if (s.upTo m).sees m.char then (Side.ofChar? m.char).map (Seen.mk · i) else none
    here.toList ++ seenInFrom ((s.upTo m).step m.char) (i + 1) ms

/-- The parentheses seen in an outline, with their ranks. -/
def seenIn (ms : List Mark) : List Seen :=
  seenInFrom .start 0 ms

/-- The scan of a text and the scan of its outline: both in a string or both outside, and the
    next quote is shielded for both or for none. White space shields nothing. -/
structure Scan.Follows (gap : Bool) (s t : Scan) : Prop where
  inString : s.inString = t.inString
  escaping : (s.previous = some '\\') ↔ (gap = false ∧ t.previous = some '\\')

theorem Scan.isDelimiter_eq (s : Scan) (c : Char) :
    s.isDelimiter c = (decide (c = '\'') && !decide (s.previous = some '\\')) := by
  rw [Scan.isDelimiter, bne, ← Bool.beq_eq_decide_eq s.previous, ← Bool.beq_eq_decide_eq c]

/-- Up to a visible character, the two scans take it for the same. -/
theorem Scan.Follows.isDelimiter {gap : Bool} {s t : Scan} (h : s.Follows gap t) (c : Char) :
    (t.upTo ⟨gap, c.toUpper⟩).inString = s.inString ∧
      (t.upTo ⟨gap, c.toUpper⟩).isDelimiter c.toUpper = s.isDelimiter c := by
  have hquote := toUpper_eq_iff (x := '\'') (by decide) c
  have hescaping := h.escaping
  simp only [Scan.isDelimiter_eq, hquote]
  cases gap with
  | true =>
    have hprevious : s.previous ≠ some '\\' := by simpa using hescaping
    constructor
    · simp [Scan.upTo, Scan.step, Scan.isDelimiter, h.inString]
    · simp [Scan.upTo, Scan.step, hprevious]
  | false =>
    have hprevious : s.previous = some '\\' ↔ t.previous = some '\\' := by simpa using hescaping
    refine ⟨h.inString.symm, ?_⟩
    simp [Scan.upTo, hprevious]

theorem Scan.Follows.step {gap : Bool} {s t : Scan} (h : s.Follows gap t) (c : Char) :
    (s.step c).Follows false ((t.upTo ⟨gap, c.toUpper⟩).step c.toUpper) := by
  obtain ⟨hin, hdelimiter⟩ := h.isDelimiter c
  have hslash := toUpper_eq_iff (x := '\\') (by decide) c
  constructor
  · simp only [Scan.step, hdelimiter, hin]
  · simp [Scan.step, hslash]

theorem Scan.Follows.step_blank {gap : Bool} {s t : Scan} (h : s.Follows gap t) {c : Char}
    (hc : isBlank c = true) : (s.step c).Follows true t := by
  have hquote : c ≠ '\'' := blank_ne hc (by decide)
  have hslash : c ≠ '\\' := blank_ne hc (by decide)
  constructor
  · simp [Scan.step, Scan.isDelimiter, hquote, h.inString]
  · simp [Scan.step, hslash]

/-- A scan sees the same parentheses in a text and in its outline, whatever stands before the
    two, if `f` gives the ranks of the offsets. -/
theorem seenFrom_outlineFrom {gap : Bool} {s t : Scan} (h : s.Follows gap t) {f : Nat → Nat}
    {i r : Nat} {cs : List Char}
    (hf : ∀ a b, cs = a ++ b → f (i + utf8Size a) = r + (outlineFrom gap a).length) :
    (seenFrom s i cs).map (Seen.relabel f) = seenInFrom t r (outlineFrom gap cs) := by
  induction cs generalizing gap s t i r with
  | nil => rfl
  | cons c cs ih =>
    have hhere : f i = r := by simpa using hf [] (c :: cs) rfl
    have hafter : ∀ a b, cs = a ++ b →
        f (i + c.utf8Size + utf8Size a) = r + (outlineFrom gap (c :: a)).length := by
      rintro a b rfl
      rw [← hf (c :: a) b rfl, utf8Size_cons, Nat.add_assoc]
    rw [seenFrom_cons, List.map_append]
    cases hc : isBlank c with
    | true =>
      -- The outline has no mark here, and its scan takes the gap in with the next mark.
      rw [outlineFrom_blank hc] at *
      have hnone : Side.ofChar? c = none := by
        simp [Side.ofChar?, blank_ne hc (show isBlank '(' = false by decide),
          blank_ne hc (show isBlank ')' = false by decide)]
      rw [hnone, ← ih (h.step_blank hc) fun a b hab => by
        rw [hafter a b hab, outlineFrom_blank hc]]
      simp
    | false =>
      obtain ⟨hin, hdelimiter⟩ := h.isDelimiter c
      have hsees : (t.upTo ⟨gap, c.toUpper⟩).sees c.toUpper = s.sees c := by
        rw [Scan.sees, Scan.sees, hin, hdelimiter]
      have hside : Side.ofChar? c.toUpper = Side.ofChar? c :=
        apply_toUpper Side.ofChar? (by decide) c
      rw [outlineFrom_visible hc, seenInFrom, hsees, hside,
        ← ih (h.step c) fun a b hab => by
          rw [hafter a b hab, outlineFrom_visible hc, List.length_cons]
          omega]
      congr 1
      split
      · cases Side.ofChar? c with
        | none => rfl
        | some side => simp [Seen.relabel, hhere]
      · rfl

/-- The parentheses seen in a text are those seen in its outline, each with its rank. -/
theorem seen_outline (cs : List Char) :
    (seen cs).map (Seen.relabel (rank cs)) = seenIn (outline cs) := by
  refine seenFrom_outlineFrom ⟨rfl, by decide⟩ ?_
  rintro a b rfl
  rw [Nat.zero_add, Nat.zero_add, rank_utf8Size]
  rfl

theorem isVisibleAt_of_mem_seen {cs : List Char} {p : Seen} (hp : p ∈ seen cs) :
    IsVisibleAt cs p.offset := by
  obtain ⟨a, b, hsplit, hoffset⟩ := mem_seen hp
  refine ⟨a, p.side.char, b, hsplit, ?_, hoffset.symm⟩
  cases p.side <;> decide

/-! ## Groups of an outline -/

/-- Which parentheses make a group does not depend on their offsets. -/
theorem groupsFrom_relabel (f : Nat → Nat) (opened : List Nat) (ps : List Seen) :
    groupsFrom (opened.map f) (ps.map (Seen.relabel f)) =
      (groupsFrom opened ps).map (Group.relabel f) := by
  fun_induction groupsFrom opened ps with
  | case1 opened => rfl
  | case2 opened i ps ih => exact ih
  | case3 j ps ih => exact ih
  | case4 j ps i outer ih =>
    rw [List.map_cons (f := Group.relabel f), ← ih]
    rfl

/-- The groups of a text are those of its outline, each with its ranks. -/
theorem groups_outline (cs : List Char) :
    (groups cs).map (Group.relabel (rank cs)) = groupsFrom [] (seenIn (outline cs)) := by
  rw [groups, ← groupsFrom_relabel, seen_outline]
  rfl

/-- The marks strictly between two ranks. -/
def marksBetween (ms : List Mark) (start stop : Nat) : List Mark :=
  (ms.take stop).drop (start + 1)

/-- Two beginnings of a text that have the same size are the same. -/
theorem eq_of_utf8Size_eq {a b c d : List Char} (h : a ++ b = c ++ d)
    (hsize : utf8Size a = utf8Size c) : a = c := by
  -- One begins the other, and what is left of the longer one has no size.
  have hnil : ∀ m : List Char, utf8Size m = 0 → m = [] := by
    intro m hm
    cases m with
    | nil => rfl
    | cons x m =>
      have := x.utf8Size_pos
      rw [utf8Size_cons] at hm
      omega
  rcases List.append_eq_append_iff.1 h with ⟨m, rfl, -⟩ | ⟨m, rfl, -⟩
  · rw [utf8Size_append] at hsize
    rw [hnil m (by omega), List.append_nil]
  · rw [utf8Size_append] at hsize
    rw [hnil m (by omega), List.append_nil]

/-- The text between two parentheses, as far as the outline goes. -/
theorem between_outline {cs body : List Char} {p q : Seen} (hp : p ∈ seen cs) (hq : q ∈ seen cs)
    (hbody : slice? cs (p.offset + 1) q.offset = some body) :
    outlineFrom false body = marksBetween (outline cs) (rank cs p.offset) (rank cs q.offset) := by
  obtain ⟨a, b, hab, hpa⟩ := mem_seen hp
  obtain ⟨c, d, hcd, hqc⟩ := mem_seen hq
  obtain ⟨u, v, huv, hu, hub⟩ := slice?_eq_some_iff.1 hbody
  have hvisible : isBlank p.side.char = false := by cases p.side <;> decide
  -- The slice begins right after the first parenthesis and ends right before the second.
  have hone : p.side.char.utf8Size = 1 := by cases p.side <;> rfl
  have hua : u = a ++ [p.side.char] := by
    apply eq_of_utf8Size_eq (b := body ++ v) (d := b)
    · rw [← huv, hab]
      simp
    · rw [hu, hpa]
      simp [hone]
  have hcu : c = u ++ body := by
    apply eq_of_utf8Size_eq (b := q.side.char :: d) (d := v)
    · rw [← hcd, huv, List.append_assoc]
    · rw [hub, hqc]
  have hoc : outline c =
      outline a ++ ⟨gapAfter true a, p.side.char.toUpper⟩ :: outlineFrom false body := by
    rw [hcu, hua, List.append_assoc, List.singleton_append, outline, outlineFrom_append,
      outlineFrom_visible hvisible]
    rfl
  have hrankp : rank cs p.offset = (outline a).length := by rw [hpa, hab, rank_utf8Size]
  have hrankq : rank cs q.offset = (outline c).length := by rw [hqc, hcd, rank_utf8Size]
  have hcs : outline cs = outline c ++ outlineFrom (gapAfter true c) (q.side.char :: d) := by
    rw [hcd, outline, outlineFrom_append]
    rfl
  rw [marksBetween, hrankq, hcs, List.take_left' rfl, hrankp, hoc, List.drop_length_add_append]
  rfl

/-- A closing parenthesis and an opening one seen before it bound a part of the text, which
    is the part of the outline between their ranks. -/
theorem slice?_outline_of_split {cs : List Char} {before after : List Seen} {i j : Nat}
    (hseen : seen cs = before ++ ⟨.closing, j⟩ :: after) (hi : ⟨.opening, i⟩ ∈ before) :
    ∃ body, slice? cs (i + 1) j = some body ∧
      outlineFrom false body = marksBetween (outline cs) (rank cs i) (rank cs j) := by
  have hp : (⟨.opening, i⟩ : Seen) ∈ seen cs := by
    rw [hseen]
    exact List.mem_append_left _ hi
  have hq : (⟨.closing, j⟩ : Seen) ∈ seen cs := by
    rw [hseen]
    simp
  obtain ⟨body, hbody⟩ := slice?_of_split hseen hi
  exact ⟨body, hbody, between_outline hp hq hbody⟩

/-! ## The nesting depth -/

/-- A nesting counter with other offsets. -/
def Nesting.relabel (f : Nat → Nat) (n : Nesting) : Nesting :=
  ⟨n.opened.map f, n.depth, n.highest⟩

/-- Read one parenthesis of an outline. -/
def Nesting.stepIn (ms : List Mark) (n : Nesting) (p : Seen) : Nesting :=
  match p.side with
  | .opening => ⟨p.offset :: n.opened, n.depth + 1, max n.highest (n.depth + 1)⟩
  | .closing =>
    match n.opened with
    | [] => n
    | i :: outer =>
      ⟨outer, n.depth - 1,
        if holds selectWord (marksBetween ms i p.offset) then n.highest else n.highest - 1⟩

/-- How deep the parenthesised `SELECT`s of an outline nest. -/
def selectDepthIn (ms : List Mark) : Nat :=
  ((seenIn ms).foldl (Nesting.stepIn ms) .start).highest

/-- One parenthesis: the counters of a text and of its outline stay the same. -/
theorem Nesting.step_outline {cs : List Char} {before after : List Seen} {p : Seen} {n n' : Nesting}
    (hseen : seen cs = before ++ p :: after) (h : n.Sound before) (hstep : n.step cs p = .ok n') :
    n'.relabel (rank cs) =
      (n.relabel (rank cs)).stepIn (outline cs) (p.relabel (rank cs)) := by
  obtain ⟨side, j⟩ := p
  obtain ⟨opened, depth, highest⟩ := n
  cases side with
  | opening =>
    cases hstep
    rfl
  | closing =>
    cases opened with
    | nil =>
      cases hstep
      rfl
    | cons i outer =>
      obtain ⟨body, hbody, houtline⟩ :=
        slice?_outline_of_split hseen (h.opened_seen i List.mem_cons_self)
      have hdepth : depth = outer.length + 1 := h.depth_eq
      simp only [Nesting.step, levelUp, between_of_slice? hbody] at hstep
      rw [if_neg (by omega)] at hstep
      cases hstep
      simp only [Nesting.relabel, Nesting.stepIn, Seen.relabel, List.map_cons]
      rw [mentionsSelect_outlineFrom false, houtline]

theorem Nesting.run_outline {cs : List Char} {before ps : List Seen} {n n' : Nesting}
    (hseen : seen cs = before ++ ps) (h : n.Sound before) (hrun : n.run cs ps = .ok n') :
    n'.relabel (rank cs) =
      (ps.map (Seen.relabel (rank cs))).foldl (Nesting.stepIn (outline cs))
        (n.relabel (rank cs)) := by
  -- Soundness is carried along: a step finds what it closes among the parentheses before it.
  induction ps generalizing before n with
  | nil =>
    cases hrun
    rfl
  | cons p ps ih =>
    obtain ⟨n₁, hstep, hsound⟩ := Nesting.step_sound hseen h
    rw [Nesting.run, hstep] at hrun
    rw [List.map_cons, List.foldl_cons, ← Nesting.step_outline hseen h hstep]
    exact ih (by simpa using hseen) hsound hrun

/-- The nesting depth of a text is that of its outline. -/
theorem selectDepth_outline (cs : List Char) :
    selectDepth cs = .ok (selectDepthIn (outline cs)) := by
  have hall : seen cs = [] ++ seen cs ++ [] := by simp
  obtain ⟨n, hrun, -⟩ := Nesting.run_sound hall Nesting.start_sound
  have hn := Nesting.run_outline rfl Nesting.start_sound hrun
  rw [seen_outline] at hn
  have hhighest := congrArg Nesting.highest hn
  change n.highest = selectDepthIn (outline cs) at hhighest
  rw [selectDepth, hrun, ← hhighest]
  rfl

end QueryLint.Paren

namespace QueryLint

open QueryLint.Text QueryLint.Paren

/-! ## The structural rules -/

/-- The structural rules depend on the outline of a query alone. -/
theorem Structure.diagnostics_congr {a b : String} (h : outline a.toList = outline b.toList)
    (limit : Nat) : Structure.diagnostics a limit = Structure.diagnostics b limit := by
  have hcount : ∀ x, isBlank x = false → isCaseless x = true →
      a.toList.count x = b.toList.count x := by
    intro x hx hcase
    have ha := count_outlineFrom hx hcase true a.toList
    have hb := count_outlineFrom hx hcase true b.toList
    rw [← outline] at ha hb
    rw [← ha, ← hb, h]
  have hviolations : violations a.toList limit = violations b.toList limit := by
    rw [violations, violations, selectDepth_outline, selectDepth_outline, h, parensMatch,
      parensMatch, quotesPair, quotesPair, hcount '(' (by decide) (by decide),
      hcount ')' (by decide) (by decide), hcount '\'' (by decide) (by decide)]
  rw [Structure.diagnostics, Structure.diagnostics, hviolations]

/-! ## Subqueries -/

namespace Subquery

/-- A subquery of a text with ranks for its offsets and the characters of its outline. -/
def outlined (cs : List Char) (s : Subquery) : Subquery :=
  ⟨rank cs s.start, rank cs s.stop, (outline s.text).map Mark.char⟩

/-- The subquery a group of an outline makes. -/
def ofGroupIn? (ms : List Mark) (g : Group) : Option Subquery :=
  let body := marksBetween ms g.start g.stop
  if beginsWith selectWord body then some ⟨g.start, g.stop, body.map Mark.char⟩ else none

/-- The subqueries of an outline. -/
def allIn (ms : List Mark) : List Subquery :=
  (groupsFrom [] (seenIn ms)).filterMap (ofGroupIn? ms)

theorem map_char_loosen (ms : List Mark) : (loosen ms).map Mark.char = ms.map Mark.char := by
  cases ms <;> rfl

/-- One group: what it makes in a text it makes in the outline. -/
theorem ofGroup?_outline {cs : List Char} {g : Group} (hg : g ∈ groups cs) :
    ∃ s, ofGroup? cs g = .ok s ∧
      s.map (outlined cs) = ofGroupIn? (outline cs) (g.relabel (rank cs)) ∧
      ∀ x ∈ s, x.start = g.start ∧ x.stop = g.stop := by
  obtain ⟨before, after, hseen, hopen⟩ := mem_groups hg
  obtain ⟨body, hbody, houtline⟩ := slice?_outline_of_split hseen hopen
  have hchars : (outline (trim body)).map Mark.char = (outlineFrom false body).map Mark.char := by
    rw [outline_trim, ← loosen_outlineFrom false, map_char_loosen]
  have hview : ofGroupIn? (outline cs) (g.relabel (rank cs)) =
      if beginsWith selectWord (outlineFrom false body) then
        some ⟨rank cs g.start, rank cs g.stop, (outlineFrom false body).map Mark.char⟩
      else none := by
    rw [houtline]
    rfl
  refine ⟨_, by rw [ofGroup?, Group.body, between_of_slice? hbody]; rfl, ?_, ?_⟩
  · rw [hview, ← beginsWithSelect_outlineFrom false]
    split
    · rw [Option.map_some, outlined, hchars]
    · rfl
  · intro x hx
    split at hx
    · cases hx
      exact ⟨rfl, rfl⟩
    · cases hx

/-- The subqueries among groups of a text are those among the groups of its outline. -/
theorem ofGroups_outline {cs : List Char} {gs : List Group} (hgs : ∀ g ∈ gs, g ∈ groups cs) :
    ∃ ss, ofGroups cs gs = .ok ss ∧
      ss.map (outlined cs) =
        (gs.map (Group.relabel (rank cs))).filterMap (ofGroupIn? (outline cs)) ∧
      ∀ x ∈ ss, ∃ g ∈ gs, x.start = g.start ∧ x.stop = g.stop := by
  induction gs with
  | nil => exact ⟨[], rfl, rfl, by simp⟩
  | cons g gs ih =>
    obtain ⟨s, hs, hview, hplace⟩ := ofGroup?_outline (hgs g List.mem_cons_self)
    obtain ⟨ss, hss, hviews, hplaces⟩ := ih fun m hm => hgs m (List.mem_cons_of_mem _ hm)
    refine ⟨s.toList ++ ss, by rw [ofGroups, hs, hss]; rfl, ?_, ?_⟩
    · rw [List.map_append, hviews, List.map_cons, List.filterMap_cons, ← hview]
      cases s <;> rfl
    · intro x hx
      rcases List.mem_append.1 hx with hx | hx
      · exact ⟨g, List.mem_cons_self, hplace x (Option.mem_toList.1 hx)⟩
      · obtain ⟨m, hm, hxm⟩ := hplaces x hx
        exact ⟨m, List.mem_cons_of_mem _ hm, hxm⟩

theorem isVisibleAt_of_mem_groups {cs : List Char} {g : Group} (hg : g ∈ groups cs) :
    IsVisibleAt cs g.start ∧ IsVisibleAt cs g.stop := by
  obtain ⟨before, after, hseen, hopen⟩ := mem_groups hg
  constructor
  · refine isVisibleAt_of_mem_seen (p := ⟨.opening, g.start⟩) ?_
    rw [hseen]
    exact List.mem_append_left _ hopen
  · refine isVisibleAt_of_mem_seen (p := ⟨.closing, g.stop⟩) ?_
    rw [hseen]
    simp

theorem ownViolations_outlined (cs : List Char) (s : Subquery) :
    (s.outlined cs).ownViolations = s.ownViolations := by
  have hcount : ∀ x, isBlank x = false → isCaseless x = true →
      (s.outlined cs).text.count x = s.text.count x :=
    fun x hx hcase => count_outlineFrom hx hcase true s.text
  rw [ownViolations, ownViolations, hcount '(' (by decide) (by decide),
    hcount ')' (by decide) (by decide), hcount '\'' (by decide) (by decide)]

/-- Ranks keep which subquery lies inside which, hence how deep they nest. -/
theorem deepest_outlined {cs : List Char} {ss : List Subquery}
    (hss : ∀ s ∈ ss, IsVisibleAt cs s.start ∧ IsVisibleAt cs s.stop) :
    deepest (ss.map (outlined cs)) = deepest ss := by
  have hencloses : ∀ s ∈ ss, ∀ t ∈ ss,
      (s.outlined cs).encloses (t.outlined cs) = s.encloses t := by
    intro s hs t ht
    have hstart := rank_lt_iff (hss s hs).1 (hss t ht).1
    have hstop := rank_lt_iff (hss t ht).2 (hss s hs).2
    simp only [encloses, outlined, hstart, hstop]
  have hlevel : ∀ t ∈ ss, level (ss.map (outlined cs)) (t.outlined cs) = level ss t := by
    intro t ht
    rw [level, level, List.countP_map]
    congr 1
    apply List.countP_congr
    intro s hs
    rw [Function.comp_apply, hencloses s hs t ht]
  rw [deepest, deepest, List.map_map]
  congr 1
  exact List.map_congr_left hlevel

/-- What is wrong with the subqueries of a query is what is wrong with those of its outline. -/
theorem diagnostics_outline (sql : String) :
    Subquery.diagnostics sql =
      .ok ((violationsOf (allIn (outline sql.toList))).map Violation.diagnostic) := by
  obtain ⟨ss, hall, hviews, hplaces⟩ := ofGroups_outline fun g (hg : g ∈ groups sql.toList) => hg
  have hvisible : ∀ s ∈ ss, IsVisibleAt sql.toList s.start ∧ IsVisibleAt sql.toList s.stop := by
    intro s hs
    obtain ⟨g, hg, hstart, hstop⟩ := hplaces s hs
    rw [hstart, hstop]
    exact isVisibleAt_of_mem_groups hg
  rw [groups_outline] at hviews
  have hviolations : violationsOf (allIn (outline sql.toList)) = violationsOf ss := by
    rw [allIn, ← hviews, violationsOf, violationsOf, deepest_outlined hvisible, List.flatMap_map]
    simp only [ownViolations_outlined]
  rw [Subquery.diagnostics, Subquery.all, hall, hviolations]
  rfl

end Subquery

end QueryLint

/-
  QueryLint.Proofs.LiveParens

  The parentheses of a text and the groups they make, said by positions alone, without a scan
  and without a stack. A quote delimits a string unless a backslash stands right before it, and
  a parenthesis is live if an even number of delimiters stands before it.

  `mem_seen_iff` says that a scan sees exactly the live parentheses, and `Group.matched_iff` that
  two of them are partners exactly if the live ones strictly between them are balanced. What
  stands between two partners is `TextBetween`, and the text inside a group is just that
  (`Group.Matched.body_eq_ok_iff`).
-/
import QueryLint.Proofs.MatchedParens
import Mathlib.Algebra.Group.Nat.Even
import Mathlib.Data.List.Induction
import Mathlib.Data.List.Sort

namespace QueryLint.Paren

open QueryLint.Text

/-! ## Live parentheses -/

/-- How many quotes of a text have no backslash right before them. -/
def delimiters (cs : List Char) : Nat :=
  (List.range cs.length).countP fun n =>
    cs[n]? == some '\'' && (n == 0 || cs[n - 1]? != some '\\')

/-- The parenthesis stands in the text at its offset, after an even number of delimiters. -/
def Live (cs : List Char) (p : Seen) : Prop :=
  ∃ before after, cs = before ++ p.side.char :: after ∧ utf8Size before = p.offset ∧
    Even (delimiters before)

theorem delimiters_concat (cs : List Char) (c : Char) :
    delimiters (cs ++ [c]) =
      delimiters cs + if c = '\'' ∧ cs.getLast? ≠ some '\\' then 1 else 0 := by
  -- The positions before the last one are those of `cs`, with the same characters.
  have hfront : ∀ n ∈ List.range cs.length,
      ((cs ++ [c])[n]? == some '\'' && (n == 0 || (cs ++ [c])[n - 1]? != some '\\')) = true ↔
        (cs[n]? == some '\'' && (n == 0 || cs[n - 1]? != some '\\')) = true := by
    intro n hn
    rw [List.mem_range] at hn
    rw [List.getElem?_append_left hn, List.getElem?_append_left (by omega)]
  have hlast : (cs ++ [c])[cs.length]? = some c := by simp
  have hbefore : (cs.length == 0 || (cs ++ [c])[cs.length - 1]? != some '\\') =
      (cs.getLast? != some '\\') := by
    cases cs with
    | nil => rfl
    | cons d cs => rw [List.getLast?_eq_getElem?, List.getElem?_append_left (by simp)]; rfl
  rw [delimiters, delimiters, List.length_append, List.length_singleton, List.range_succ,
    List.countP_append, List.countP_congr hfront, List.countP_singleton, hlast, hbefore]
  simp

/-- A scan is in a string after an odd number of delimiters. -/
theorem inString_after_start (cs : List Char) :
    (Scan.start.after cs).inString = true ↔ ¬ Even (delimiters cs) := by
  induction cs using List.reverseRecOn with
  | nil => simp [Scan.start, delimiters]
  | append_singleton cs c ih =>
    have hprevious : (Scan.start.after cs).previous = cs.getLast? := by
      rw [Scan.after_previous]
      exact Option.or_none
    rw [Scan.after_append, Scan.after_cons, Scan.after_nil, delimiters_concat]
    by_cases hc : c = '\'' ∧ cs.getLast? ≠ some '\\'
    · have hdelimiter : (Scan.start.after cs).isDelimiter c = true := by
        simp [Scan.isDelimiter, hprevious, hc]
      have hstep : ((Scan.start.after cs).step c).inString = !(Scan.start.after cs).inString := by
        simp [Scan.step, hdelimiter]
      rw [hstep, Bool.not_eq_true', ← Bool.not_eq_true, ih, if_pos hc, Nat.even_add_one]
    · have hdelimiter : (Scan.start.after cs).isDelimiter c = false := by
        simpa [Scan.isDelimiter, hprevious] using hc
      have hstep : ((Scan.start.after cs).step c).inString = (Scan.start.after cs).inString := by
        simp [Scan.step, hdelimiter]
      rw [hstep, ih, if_neg hc, Nat.add_zero]

/-- A scan of a text sees exactly the live parentheses. -/
theorem mem_seen_iff {cs : List Char} {p : Seen} : p ∈ seen cs ↔ Live cs p := by
  rw [seen, mem_seenFrom_iff]
  simp only [Nat.zero_add, ← Bool.not_eq_true, inString_after_start, not_not]
  rfl

/-! ## Partners -/

/-- The live parentheses strictly between two offsets are these, from left to right. -/
structure LiveBetween (cs : List Char) (i j : Nat) (ps : List Seen) : Prop where
  sorted : ps.Pairwise fun p q => p.offset < q.offset
  mem_iff : ∀ p, p ∈ ps ↔ Live cs p ∧ i < p.offset ∧ p.offset < j

/-- Between two parentheses that are seen, those seen after the first and before the second are
    the live ones. -/
theorem liveBetween_of_split {cs : List Char} {before inner after : List Seen} {p q : Seen}
    (hseen : seen cs = before ++ p :: (inner ++ q :: after)) :
    LiveBetween cs p.offset q.offset inner := by
  have hsorted := seen_sorted cs
  rw [hseen, List.pairwise_append, List.pairwise_cons, List.pairwise_append,
    List.pairwise_cons] at hsorted
  obtain ⟨-, ⟨hp, hinner, ⟨hq, -⟩, hinnerq⟩, hbefore⟩ := hsorted
  refine ⟨hinner, fun r => ⟨fun hr => ⟨?_, ?_, ?_⟩, ?_⟩⟩
  · rw [← mem_seen_iff, hseen]
    simp [hr]
  · exact hp r (List.mem_append_left _ hr)
  · exact hinnerq r hr q List.mem_cons_self
  · rintro ⟨hlive, hlow, hhigh⟩
    rw [← mem_seen_iff, hseen] at hlive
    -- Anything else that is seen stands before the first or after the second.
    simp only [List.mem_append, List.mem_cons] at hlive
    rcases hlive with hr | rfl | hr | rfl | hr
    · have := hbefore r hr p List.mem_cons_self
      omega
    · omega
    · exact hr
    · omega
    · have := hq r hr
      omega

/-- There is one list of live parentheses between two offsets. -/
theorem LiveBetween.unique {cs : List Char} {i j : Nat} {ps qs : List Seen}
    (hps : LiveBetween cs i j ps) (hqs : LiveBetween cs i j qs) : ps = qs := by
  have hasymm : Std.Antisymm fun p q : Seen => p.offset < q.offset :=
    ⟨fun _ _ hpq hqp => absurd hpq (Nat.lt_asymm hqp)⟩
  have hirrefl : Std.Irrefl fun p q : Seen => p.offset < q.offset := ⟨fun _ => Nat.lt_irrefl _⟩
  exact hps.sorted.eq_of_mem_iff hqs.sorted fun p => (hps.mem_iff p).trans (hqs.mem_iff p).symm

/-- Two parentheses are partners exactly if both are live and the live ones between them are
    balanced. -/
theorem Group.matched_iff {cs : List Char} {g : Group} :
    g.Matched cs ↔ g.start < g.stop ∧ Live cs ⟨.opening, g.start⟩ ∧ Live cs ⟨.closing, g.stop⟩ ∧
      ∃ ps, LiveBetween cs g.start g.stop ps ∧ Balanced ps := by
  constructor
  · rintro ⟨before, inner, after, hseen, hinner⟩
    have hsorted := seen_sorted cs
    rw [hseen, List.pairwise_append, List.pairwise_cons] at hsorted
    refine ⟨hsorted.2.1.1 ⟨.closing, g.stop⟩ (by simp), ?_, ?_, inner,
      liveBetween_of_split hseen, hinner⟩
    · rw [← mem_seen_iff, hseen]
      simp
    · rw [← mem_seen_iff, hseen]
      simp
  · rintro ⟨hlt, hopen, hclose, ps, hps, hbalanced⟩
    rw [← mem_seen_iff] at hopen hclose
    obtain ⟨before, rest, hrest⟩ := List.append_of_mem hclose
    -- The opening parenthesis has the smaller offset, so it is seen before the closing one.
    have hbefore : (⟨.opening, g.start⟩ : Seen) ∈ before := by
      have hsorted := seen_sorted cs
      rw [hrest, List.pairwise_append, List.pairwise_cons] at hsorted
      rw [hrest, List.mem_append, List.mem_cons] at hopen
      rcases hopen with h | h | h
      · exact h
      · cases h
      · exact absurd (hsorted.2.1.1 _ h) (Nat.lt_asymm hlt)
    obtain ⟨outer, inner, rfl⟩ := List.append_of_mem hbefore
    have hseen : seen cs =
        outer ++ ⟨.opening, g.start⟩ :: (inner ++ ⟨.closing, g.stop⟩ :: rest) := by
      rw [hrest, List.append_assoc, List.cons_append]
    refine ⟨outer, inner, rest, hseen, ?_⟩
    rwa [← hps.unique (liveBetween_of_split hseen)]

/-! ## The text between partners -/

/-- The text strictly between an opening parenthesis and a closing one, by their offsets. -/
def TextBetween (cs : List Char) (i j : Nat) (body : List Char) : Prop :=
  ∃ before after, cs = before ++ '(' :: (body ++ ')' :: after) ∧ utf8Size before = i ∧
    i + 1 + utf8Size body = j

theorem TextBetween.between_eq {cs : List Char} {i j : Nat} {body : List Char}
    (h : TextBetween cs i j body) : between cs i j = .ok body := by
  obtain ⟨before, after, rfl, rfl, rfl⟩ := h
  have hone : '('.utf8Size = 1 := rfl
  apply between_of_slice?
  refine slice?_eq_some_iff.2 ⟨before ++ ['('], ')' :: after, ?_, ?_, ?_⟩
  · simp
  · simp [hone]
  · simp [hone, Nat.add_assoc]

theorem Group.Matched.exists_textBetween {cs : List Char} {g : Group} (h : g.Matched cs) :
    ∃ body, TextBetween cs g.start g.stop body := by
  obtain ⟨hlt, hopen, hclose, -⟩ := Group.matched_iff.1 h
  rw [← mem_seen_iff] at hopen hclose
  obtain ⟨before, body, after, htext, hstart, hstop⟩ := split_between hopen hclose hlt
  refine ⟨body, before, after, htext, hstart, ?_⟩
  rw [utf8Size_append, utf8Size_cons, Side.utf8Size_char, hstart, ← Nat.add_assoc] at hstop
  exact hstop

/-- The text inside a group is the text between its parentheses. -/
theorem Group.Matched.body_eq_ok_iff {cs : List Char} {g : Group} (h : g.Matched cs)
    {body : List Char} : g.body cs = .ok body ↔ TextBetween cs g.start g.stop body := by
  constructor
  · intro hbody
    obtain ⟨inside, hinside⟩ := h.exists_textBetween
    have heq : between cs g.start g.stop = .ok body := hbody
    rw [hinside.between_eq] at heq
    cases heq
    exact hinside
  · exact TextBetween.between_eq

end QueryLint.Paren

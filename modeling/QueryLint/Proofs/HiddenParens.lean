/-
  QueryLint.Proofs.HiddenParens

  What the checks of a single subquery react to. They count all parentheses and all quotes of its
  text, whereas a subquery is found by those outside strings alone. The parentheses seen between
  two partners are balanced and both partners stand outside strings, so whatever is out of balance
  comes from the other characters: parentheses inside strings (`hidden`) and quotes right after a
  backslash (`escapedQuotes`).

  `count_char_eq` and `count_quote_eq` split the plain counts in this way, and
  `Subquery.own_reports_exact` says what is reported about each subquery by itself.
-/
import QueryLint.Proofs.OutlineChecks
import QueryLint.Proofs.SubqueryList
import Mathlib.Algebra.Ring.Parity

namespace QueryLint.Paren

open QueryLint.Text

/-! ## Parentheses inside strings -/

/-- The parentheses a scan passes over inside strings, in a text whose first character has octet
    offset `i`. -/
def hiddenFrom (s : Scan) (i : Nat) : List Char → List Seen
  | [] => []
  | c :: cs =>
    let here := if s.inString then (Side.ofChar? c).map (Seen.mk · i) else none
    here.toList ++ hiddenFrom (s.step c) (i + c.utf8Size) cs

/-- The parentheses inside strings, from left to right. -/
def hidden (cs : List Char) : List Seen :=
  hiddenFrom .start 0 cs

theorem hiddenFrom_cons (s : Scan) (i : Nat) (c : Char) (cs : List Char) :
    hiddenFrom s i (c :: cs) =
      (if s.inString then (Side.ofChar? c).map (Seen.mk · i) else none).toList ++
        hiddenFrom (s.step c) (i + c.utf8Size) cs := rfl

theorem hiddenFrom_append (s : Scan) (i : Nat) (a b : List Char) :
    hiddenFrom s i (a ++ b) = hiddenFrom s i a ++ hiddenFrom (s.after a) (i + utf8Size a) b := by
  induction a generalizing s i with
  | nil => rfl
  | cons c a ih =>
    rw [List.cons_append, hiddenFrom_cons, ih, hiddenFrom_cons, List.append_assoc, Scan.after_cons,
      utf8Size_cons, Nat.add_assoc]

theorem bounds_of_mem_hiddenFrom {s : Scan} {i : Nat} {cs : List Char} {p : Seen}
    (h : p ∈ hiddenFrom s i cs) : i ≤ p.offset ∧ p.offset < i + utf8Size cs := by
  induction cs generalizing s i with
  | nil => cases h
  | cons c cs ih =>
    have hpos := c.utf8Size_pos
    rw [hiddenFrom_cons] at h
    rw [utf8Size_cons]
    rcases List.mem_append.1 h with h | h
    · rw [Option.mem_toList] at h
      split at h
      · obtain ⟨side, -, rfl⟩ := Option.map_eq_some_iff.1 h
        exact ⟨Nat.le_refl i, show i < _ by omega⟩
      · cases h
    · have hrest := ih h
      omega

theorem bounds_of_mem_seenFrom {s : Scan} {i : Nat} {cs : List Char} {p : Seen}
    (h : p ∈ seenFrom s i cs) : i ≤ p.offset ∧ p.offset < i + utf8Size cs := by
  obtain ⟨a, b, rfl, hoffset⟩ := mem_seenFrom h
  have hpos := p.side.char.utf8Size_pos
  rw [utf8Size_append, utf8Size_cons]
  omega

/-! ## Counting parentheses -/

/-- How many parentheses face a side. -/
def facing (side : Side) (ps : List Seen) : Nat :=
  ps.countP fun p => decide (p.side = side)

theorem facing_append (side : Side) (ps qs : List Seen) :
    facing side (ps ++ qs) = facing side ps + facing side qs :=
  List.countP_append

/-- Every parenthesis of a text is seen or stands inside a string. -/
theorem count_char_eq (side : Side) (s : Scan) (i : Nat) (cs : List Char) :
    cs.count side.char = facing side (seenFrom s i cs) + facing side (hiddenFrom s i cs) := by
  induction cs generalizing s i with
  | nil => rfl
  | cons c cs ih =>
    rw [List.count_cons, ih (s.step c) (i + c.utf8Size), seenFrom_cons, hiddenFrom_cons,
      facing_append, facing_append]
    cases hc : Side.ofChar? c with
    | none =>
      have hne : c ≠ side.char := by
        rintro rfl
        rw [Side.ofChar?_eq_some_iff.2 rfl] at hc
        cases hc
      simp [facing, hne]
    | some side' =>
      -- A parenthesis is seen outside strings and hidden inside, never both.
      rw [Side.ofChar?_eq_some_iff] at hc
      subst hc
      have hhere : (if (side'.char == side.char) = true then 1 else 0) =
          facing side [⟨side', i⟩] := by
        cases side' <;> cases side <;> rfl
      rw [Scan.sees_char, hhere]
      cases s.inString with
      | true =>
        show _ = 0 + facing side _ + (facing side [⟨side', i⟩] + facing side _)
        omega
      | false =>
        show _ = facing side [⟨side', i⟩] + facing side _ + (0 + facing side _)
        omega

theorem Balanced.facing_eq {ps : List Seen} (h : Balanced ps) :
    facing .opening ps = facing .closing ps := by
  induction h with
  | nil => rfl
  | @group i j inner rest _ _ ihInner ihRest =>
    have hopening : facing .opening (⟨.opening, i⟩ :: (inner ++ ⟨.closing, j⟩ :: rest)) =
        facing .opening inner + facing .opening rest + 1 := by
      simp [facing]
    have hclosing : facing .closing (⟨.opening, i⟩ :: (inner ++ ⟨.closing, j⟩ :: rest)) =
        facing .closing inner + facing .closing rest + 1 := by
      simp [facing, Nat.add_assoc]
    rw [hopening, hclosing, ihInner, ihRest]

/-! ## Between two offsets -/

/-- The parentheses strictly between two offsets. -/
def within (i j : Nat) (ps : List Seen) : List Seen :=
  ps.filter fun p => decide (i < p.offset ∧ p.offset < j)

theorem within_append {i j : Nat} {before inner after : List Seen}
    (hbefore : ∀ p ∈ before, p.offset ≤ i) (hinner : ∀ p ∈ inner, i < p.offset ∧ p.offset < j)
    (hafter : ∀ p ∈ after, j ≤ p.offset) : within i j (before ++ (inner ++ after)) = inner := by
  have hnone : ∀ ps : List Seen, (∀ p ∈ ps, p.offset ≤ i ∨ j ≤ p.offset) → within i j ps = [] := by
    intro ps hps
    refine List.filter_eq_nil_iff.2 fun p hp => ?_
    have := hps p hp
    simp only [decide_eq_true_eq]
    omega
  have hall : within i j inner = inner :=
    List.filter_eq_self.2 fun p hp => decide_eq_true (hinner p hp)
  have hsplit : within i j (before ++ (inner ++ after)) =
      within i j before ++ (within i j inner ++ within i j after) := by
    rw [within, List.filter_append, List.filter_append]
    rfl
  rw [hsplit, hall, hnone before fun p hp => .inl (hbefore p hp),
    hnone after fun p hp => .inr (hafter p hp), List.append_nil, List.nil_append]

/-- What is seen and what is hidden in a part of a text is what a scan sees and passes over there
    once it has read what stands before. -/
theorem within_split {front : List Char} {i : Nat} (hfront : utf8Size front = i + 1)
    (body back : List Char) :
    within i (i + 1 + utf8Size body) (seen (front ++ (body ++ back))) =
        seenFrom (Scan.start.after front) (i + 1) body ∧
      within i (i + 1 + utf8Size body) (hidden (front ++ (body ++ back))) =
        hiddenFrom (Scan.start.after front) (i + 1) body := by
  constructor
  · rw [seen, seenFrom_append, Nat.zero_add, hfront, seenFrom_append]
    refine within_append (fun p hp => ?_) (fun p hp => ?_) (fun p hp => ?_)
    · have := (bounds_of_mem_seenFrom hp).2
      omega
    · have := bounds_of_mem_seenFrom hp
      omega
    · exact (bounds_of_mem_seenFrom hp).1
  · rw [hidden, hiddenFrom_append, Nat.zero_add, hfront, hiddenFrom_append]
    refine within_append (fun p hp => ?_) (fun p hp => ?_) (fun p hp => ?_)
    · have := (bounds_of_mem_hiddenFrom hp).2
      omega
    · have := bounds_of_mem_hiddenFrom hp
      omega
    · exact (bounds_of_mem_hiddenFrom hp).1

theorem liveBetween_within (cs : List Char) (i j : Nat) :
    LiveBetween cs i j (within i j (seen cs)) := by
  refine ⟨(seen_sorted cs).sublist List.filter_sublist, fun p => ?_⟩
  rw [within, List.mem_filter, mem_seen_iff, decide_eq_true_eq]

/-- Between two partners, the parentheses out of balance are those inside strings. -/
theorem count_paren_iff {cs body : List Char} {i j : Nat} {ps : List Seen}
    (htext : TextBetween cs i j body) (hps : LiveBetween cs i j ps) (hbalanced : Balanced ps) :
    body.count '(' = body.count ')' ↔
      facing .opening (within i j (hidden cs)) = facing .closing (within i j (hidden cs)) := by
  obtain ⟨before, after, rfl, rfl, rfl⟩ := htext
  rw [List.append_cons] at hps ⊢
  have hfront : utf8Size (before ++ ['(']) = utf8Size before + 1 := utf8Size_append ..
  obtain ⟨hseen, hhidden⟩ := within_split hfront body (')' :: after)
  rw [hps.unique (liveBetween_within ..), hseen] at hbalanced
  rw [hhidden]
  -- Both counts have the same share of what is seen.
  have hcount := fun side =>
    count_char_eq side (Scan.start.after (before ++ ['('])) (utf8Size before + 1) body
  have hopening : body.count '(' = _ := hcount .opening
  have hclosing : body.count ')' = _ := hcount .closing
  rw [hopening, hclosing, hbalanced.facing_eq, Nat.add_left_cancel_iff]

/-! ## Quotes right after a backslash -/

/-- How many quotes of a text have a backslash right before them. -/
def escapedQuotes (cs : List Char) : Nat :=
  (cs.zip cs.tail).count ('\\', '\'')

theorem escapedQuotes_cons (c : Char) (cs : List Char) :
    escapedQuotes (c :: cs) =
      escapedQuotes cs + if c = '\\' ∧ cs.head? = some '\'' then 1 else 0 := by
  cases cs with
  | nil => simp [escapedQuotes]
  | cons d cs =>
    rw [escapedQuotes, List.tail_cons, List.zip_cons_cons, List.count_cons]
    simp [escapedQuotes]

theorem escapedQuotes_append (a b : List Char) :
    escapedQuotes (a ++ b) = escapedQuotes a + escapedQuotes b +
      if a.getLast? = some '\\' ∧ b.head? = some '\'' then 1 else 0 := by
  induction a with
  | nil => simp [escapedQuotes]
  | cons c a ih =>
    rw [List.cons_append, escapedQuotes_cons, ih, escapedQuotes_cons]
    cases a with
    | nil => simp [escapedQuotes]
    | cons d a =>
      rw [List.getLast?_cons_cons, List.cons_append, List.head?_cons, List.head?_cons]
      omega

/-- A quote is a delimiter or has a backslash right before it. -/
theorem count_quote_eq (cs : List Char) : cs.count '\'' = delimiters cs + escapedQuotes cs := by
  induction cs using List.reverseRecOn with
  | nil => rfl
  | append_singleton cs c ih =>
    have hone : escapedQuotes [c] = 0 := rfl
    rw [List.count_append, ih, delimiters_concat, escapedQuotes_append, hone, List.count_singleton]
    by_cases hc : c = '\'' <;> by_cases hlast : cs.getLast? = some '\\' <;>
      simp [hc, hlast] <;> omega

theorem delimiters_append {a : List Char} (h : a.getLast? ≠ some '\\') (b : List Char) :
    delimiters (a ++ b) = delimiters a + delimiters b := by
  have hall := count_quote_eq (a ++ b)
  have ha := count_quote_eq a
  have hb := count_quote_eq b
  rw [escapedQuotes_append, if_neg fun hboth => h hboth.1, List.count_append] at hall
  omega

/-- An even number of delimiters stands before a live parenthesis. -/
theorem Live.even_delimiters {cs before after : List Char} {p : Seen} (h : Live cs p)
    (htext : cs = before ++ after) (hoffset : utf8Size before = p.offset) :
    Even (delimiters before) := by
  obtain ⟨before', after', htext', hoffset', heven⟩ := h
  have hsame : before' = before :=
    eq_of_utf8Size_eq (htext'.symm.trans htext) (hoffset'.trans hoffset.symm)
  rwa [hsame] at heven

/-- Between two live parentheses, the quotes without a partner are those right after a
    backslash. -/
theorem even_count_quote_iff {cs body : List Char} {i j : Nat} (htext : TextBetween cs i j body)
    (hopening : Live cs ⟨.opening, i⟩) (hclosing : Live cs ⟨.closing, j⟩) :
    Even (body.count '\'') ↔ Even (escapedQuotes body) := by
  obtain ⟨before, after, rfl, rfl, rfl⟩ := htext
  have hbefore := hopening.even_delimiters rfl rfl
  have hsplit : before ++ '(' :: (body ++ ')' :: after) =
      ((before ++ ['(']) ++ body) ++ ')' :: after := by simp
  have hboth : Even (delimiters ((before ++ ['(']) ++ body)) := by
    refine hclosing.even_delimiters hsplit ?_
    rw [utf8Size_append, utf8Size_append]
    rfl
  rw [delimiters_append (by simp), delimiters_concat, if_neg (by simp), Nat.add_zero,
    Nat.even_add] at hboth
  rw [count_quote_eq, Nat.even_add, iff_true_left (hboth.1 hbefore)]

end QueryLint.Paren

namespace QueryLint.Text

open QueryLint.Paren

/-! ## Trimming -/

theorem count_trim {x : Char} (hx : isBlank x = false) (hcase : isCaseless x = true)
    (cs : List Char) : (trim cs).count x = cs.count x := by
  rw [← count_outlineFrom hx hcase true (trim cs), ← outline, outline_trim, outline,
    count_outlineFrom hx hcase]

theorem exists_trim_append (cs : List Char) :
    ∃ a b, cs = a ++ (trim cs ++ b) ∧ (∀ c ∈ a, isBlank c = true) ∧ ∀ c ∈ b, isBlank c = true := by
  obtain ⟨b, hb, hblank⟩ := exists_trimEnd_append (trimStart cs)
  refine ⟨cs.takeWhile isBlank, b, ?_, fun c hc => List.mem_takeWhile_imp hc, hblank⟩
  rw [trim, ← hb, trimStart, List.takeWhile_append_dropWhile]

theorem escapedQuotes_of_blank {cs : List Char} (h : ∀ c ∈ cs, isBlank c = true) :
    escapedQuotes cs = 0 := by
  have hcount : cs.count '\'' = 0 :=
    List.count_eq_zero.2 fun hmem => absurd (h _ hmem) (by decide)
  have hsum := count_quote_eq cs
  omega

theorem escapedQuotes_trim (cs : List Char) : escapedQuotes (trim cs) = escapedQuotes cs := by
  obtain ⟨a, b, htext, ha, hb⟩ := exists_trim_append cs
  -- Blanks are neither backslashes nor quotes, so no pair reaches over an end.
  have hfront : a.getLast? ≠ some '\\' :=
    fun hlast => absurd (ha _ (List.mem_of_getLast? hlast)) (by decide)
  have hback : b.head? ≠ some '\'' :=
    fun hhead => absurd (hb _ (List.mem_of_head? hhead)) (by decide)
  conv_rhs => rw [htext, escapedQuotes_append, if_neg fun h => hfront h.1, escapedQuotes_append,
    if_neg fun h => hback h.2, escapedQuotes_of_blank ha, escapedQuotes_of_blank hb]
  omega

end QueryLint.Text

namespace QueryLint.Subquery

open QueryLint.Text QueryLint.Paren

/-! ## Reports about one subquery -/

/-- The parentheses inside strings within a subquery of a text. -/
def hiddenIn (cs : List Char) (s : Subquery) : List Seen :=
  within s.start s.stop (hidden cs)

theorem unmatchedParens_mem_iff (s : Subquery) :
    .unmatchedParens ∈ s.ownViolations ↔ s.text.count '(' ≠ s.text.count ')' := by
  simp [ownViolations, List.mem_ite_nil_left]

theorem oddQuotes_mem_iff (s : Subquery) :
    .oddQuotes ∈ s.ownViolations ↔ ¬ Even (s.text.count '\'') := by
  simp [ownViolations, List.mem_ite_nil_left, Nat.even_iff]

/-- What is reported about each subquery by itself: unmatched parentheses exactly if of those
    inside strings not as many open as close, and an unclosed string exactly if an odd number of
    quotes stands right after a backslash. Without such characters nothing is reported. -/
theorem own_reports_exact (sql : String) :
    ∃ ss nesting, all sql.toList = .ok ss ∧
      diagnostics sql = .ok (ss.flatMap ownDiagnostics ++ nesting) ∧
      (∀ d ∈ nesting, d.issue = "Excessive subquery nesting") ∧
      ∀ s ∈ ss,
        ((∃ d ∈ s.ownDiagnostics, d.issue = "Unmatched parentheses in subquery") ↔
          facing .opening (s.hiddenIn sql.toList) ≠ facing .closing (s.hiddenIn sql.toList)) ∧
        ((∃ d ∈ s.ownDiagnostics, d.issue = "Unclosed string in subquery") ↔
          Odd (escapedQuotes s.text)) ∧
        (escapedQuotes s.text = 0 → s.hiddenIn sql.toList = [] → s.ownDiagnostics = []) := by
  obtain ⟨ss, hall, -, hmem⟩ := exists_ofGroups fun g (hg : g ∈ groups sql.toList) => hg
  refine ⟨ss, _, hall, diagnostics_of_all hall, ?_, fun s hs => ?_⟩
  · intro d hd
    rw [List.mem_ite_nil_left, List.mem_singleton] at hd
    rw [hd.2]
    rfl
  · obtain ⟨body, hspan, htext⟩ := exists_ofGroup_iff.1 ((hmem s).1 hs)
    obtain ⟨ps, hps, hbalanced⟩ := hspan.balanced
    -- Trimming takes neither parentheses nor quotes away.
    have hparens : .unmatchedParens ∈ s.ownViolations ↔
        facing .opening (s.hiddenIn sql.toList) ≠ facing .closing (s.hiddenIn sql.toList) := by
      rw [unmatchedParens_mem_iff, htext, count_trim (by decide) (by decide),
        count_trim (by decide) (by decide)]
      exact not_congr (count_paren_iff hspan.text hps hbalanced)
    have hquotes : .oddQuotes ∈ s.ownViolations ↔ Odd (escapedQuotes s.text) := by
      rw [oddQuotes_mem_iff, htext, count_trim (by decide) (by decide), escapedQuotes_trim,
        even_count_quote_iff hspan.text hspan.opening hspan.closing, Nat.not_even_iff_odd]
    have hreported : ∀ v, (∃ d ∈ s.ownDiagnostics, d.issue = v.diagnostic.issue) ↔
        v ∈ s.ownViolations :=
      fun v => exists_issue_iff (fun _ => Violation.issue_inj) s.ownViolations
    refine ⟨(hreported .unmatchedParens).trans hparens, (hreported .oddQuotes).trans hquotes, ?_⟩
    intro hnoQuotes hnoParens
    rw [ownDiagnostics, List.map_eq_nil_iff, List.eq_nil_iff_forall_not_mem]
    intro v hv
    cases v with
    | unmatchedParens =>
      rw [hnoParens] at hparens
      exact hparens.1 hv rfl
    | oddQuotes =>
      rw [hnoQuotes] at hquotes
      exact absurd (hquotes.1 hv) (by decide)
    | tooDeep => exact tooDeep_not_mem s hv

/-- A subquery with a parenthesis in a string and an escaped quote, and one inside it without. -/
theorem own_reports_exact_quoted :
    let sql := "x = (SELECT '(', 'it\\'s', (select 1))"
    let inner : Subquery := ⟨26, 35, "select 1".toList⟩
    let outer : Subquery := ⟨4, 36, "SELECT '(', 'it\\'s', (select 1)".toList⟩
    all sql.toList = .ok [inner, outer] ∧ inner.ownDiagnostics = [] ∧
      (∃ d ∈ outer.ownDiagnostics, d.issue = "Unmatched parentheses in subquery") ∧
      ∃ d ∈ outer.ownDiagnostics, d.issue = "Unclosed string in subquery" := by
  intro sql inner outer
  have hall : all sql.toList = .ok [inner, outer] := by decide +kernel
  obtain ⟨ss, _, hss, -, -, hown⟩ := own_reports_exact sql
  rw [hall] at hss
  cases hss
  obtain ⟨-, -, hinner⟩ := hown inner (by simp)
  obtain ⟨hparens, hquotes, -⟩ := hown outer (by simp)
  refine ⟨hall, hinner (by decide) (by decide +kernel), hparens.2 (by decide +kernel), ?_⟩
  exact hquotes.2 (by decide)

end QueryLint.Subquery

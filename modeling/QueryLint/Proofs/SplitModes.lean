/-
  QueryLint.Proofs.SplitModes

  The two ways of splitting content, beside each other. Content with one statement on a line,
  ended by a semicolon, is cut into the same queries at semicolons and at line ends
  (`split_modes_agree`): each line yields in either mode what stands before its semicolon.

  Splitting a query again gives back the query, except in line mode where semicolons at the end
  of a line have white space between them. One round of dropping semicolons and white space then
  leaves the semicolons before the white space, and `split_again_exact` says that this is the
  only case.
-/
import QueryLint.Proofs.QuerySplitting

namespace QueryLint.Source

open QueryLint.Text

/-! ## The end of a line -/

theorem dropEndWhile_semicolon_iff {cs : List Char} :
    dropEndWhile (· == ';') cs = cs ↔ cs.getLast? ≠ some ';' := by
  rw [dropEndWhile_eq_self_iff]
  constructor
  · intro h hlast
    cases h ';' hlast
  · intro h c hc
    rw [beq_eq_false_iff_ne]
    rintro rfl
    exact h hc

theorem dropEndWhile_semicolon_of_not_mem {cs : List Char} (h : ';' ∉ cs) :
    dropEndWhile (· == ';') cs = cs :=
  dropEndWhile_semicolon_iff.2 fun hlast => h (List.mem_of_getLast? hlast)

theorem trimEnd_concat_semicolon (cs : List Char) : trimEnd (cs ++ [';']) = cs ++ [';'] := by
  refine dropEndWhile_eq_self_iff.2 ?_
  rw [List.getLast?_concat]
  rintro c ⟨⟩
  decide

/-- The last semicolon of a line is dropped if only white space follows it. -/
theorem lineQuery_append_semicolon {back : List Char} (hback : ∀ c ∈ back, isBlank c = true)
    (cs : List Char) :
    lineQuery (cs ++ ';' :: back) = trimEnd (dropEndWhile (· == ';') (trimStart cs)) := by
  have htrim : trim (cs ++ ';' :: back) = trimStart cs ++ [';'] := by
    rw [trim, trimStart_append_visible (by decide), List.append_cons, trimEnd,
      dropEndWhile_append hback]
    exact trimEnd_concat_semicolon (trimStart cs)
  have hsemicolon : ∀ c ∈ [';'], (c == ';') = true := List.forall_mem_singleton.2 rfl
  rw [lineQuery, htrim, dropEndWhile_append hsemicolon]

theorem trimEnd_trim (cs : List Char) : trimEnd (trim cs) = trim cs :=
  dropEndWhile_eq_self_iff.2 (getLast?_dropEndWhile isBlank _)

theorem lineQuery_of_not_mem {line : List Char} (h : ';' ∉ line) : lineQuery line = trim line := by
  have htrim : ';' ∉ trim line := fun hmem => h ((trim_isInfix line).subset hmem)
  rw [lineQuery, dropEndWhile_semicolon_of_not_mem htrim, trimEnd_trim]

theorem lineQuery_of_blank {line : List Char} (h : ∀ c ∈ line, isBlank c = true) :
    lineQuery line = [] := by
  rw [lineQuery_of_not_mem fun hmem => absurd (h _ hmem) (by decide), trim_of_blank h]

/-! ## One statement on a line -/

/-- A statement, white space, a semicolon and white space. -/
def EndsStatement (line : List Char) : Prop :=
  ∃ body gap back, line = body ++ (gap ++ ';' :: back) ∧ ';' ∉ body ∧
    (∀ c ∈ gap, isBlank c = true) ∧ ∀ c ∈ back, isBlank c = true

/-- Every line is blank or ends the statement on it; the last one that is not blank may leave its
    semicolon out. -/
def OnePerLine : List (List Char) → Prop
  | [] => True
  | line :: rest =>
    ((∀ c ∈ line, isBlank c = true) ∨ EndsStatement line ∨
      (';' ∉ line ∧ ∀ l ∈ rest, ∀ c ∈ l, isBlank c = true)) ∧ OnePerLine rest

@[simp] theorem splitChars_statement_nil : splitChars .statement [] = [] := rfl

theorem splitChars_statement_append (a b : List Char) :
    splitChars .statement (a ++ ';' :: b) = splitChars .statement a ++ splitChars .statement b := by
  simp only [splitChars_statement, pieces_append_separator, List.map_append, List.filter_append]

theorem splitChars_statement_of_not_mem {cs : List Char} (h : ';' ∉ cs) :
    splitChars .statement cs = [trim cs].filter (!·.isEmpty) := by
  rw [splitChars_statement, pieces_of_not_mem h]
  rfl

theorem semicolon_not_mem_of_blank {b : List Char} (hb : ∀ c ∈ b, isBlank c = true) : ';' ∉ b :=
  fun hmem => absurd (hb _ hmem) (by decide)

/-- White space before content adds no statement and changes none. -/
theorem splitChars_statement_blank_append {b : List Char} (hb : ∀ c ∈ b, isBlank c = true)
    (cs : List Char) : splitChars .statement (b ++ cs) = splitChars .statement cs := by
  have hfree : ∀ {front : List Char}, ';' ∉ front → ';' ∉ b ++ front := fun hfront hmem =>
    (List.mem_append.1 hmem).elim (semicolon_not_mem_of_blank hb) hfront
  by_cases hmem : ';' ∈ cs
  · -- Only the piece before the first semicolon is longer, and it is trimmed.
    obtain ⟨front, rest, rfl, hfront⟩ := List.eq_append_cons_of_mem hmem
    rw [← List.append_assoc, splitChars_statement_append, splitChars_statement_append,
      splitChars_statement_of_not_mem (hfree hfront), splitChars_statement_of_not_mem hfront,
      trim_blank_append hb]
  · rw [splitChars_statement_of_not_mem (hfree hmem), splitChars_statement_of_not_mem hmem,
      trim_blank_append hb]

/-- A line that is blank or ends its statement yields the same query in both modes, whatever
    follows the white space after it. -/
theorem splitChars_statement_line {line ending : List Char}
    (hline : (∀ c ∈ line, isBlank c = true) ∨ EndsStatement line)
    (hending : ∀ c ∈ ending, isBlank c = true) (cs : List Char) :
    splitChars .statement (line ++ (ending ++ cs)) =
      [lineQuery line].filter (!·.isEmpty) ++ splitChars .statement cs := by
  rcases hline with hblank | ⟨body, gap, back, rfl, hbody, hgap, hback⟩
  · rw [splitChars_statement_blank_append hblank, splitChars_statement_blank_append hending,
      lineQuery_of_blank hblank]
    rfl
  · have hstatement : ';' ∉ body ++ gap := fun hmem =>
      (List.mem_append.1 hmem).elim hbody (semicolon_not_mem_of_blank hgap)
    have hquery : lineQuery (body ++ (gap ++ ';' :: back)) = trim (body ++ gap) := by
      have hstart : ';' ∉ trimStart (body ++ gap) := fun hmem =>
        hstatement ((List.dropWhile_suffix isBlank).subset hmem)
      rw [← List.append_assoc, lineQuery_append_semicolon hback,
        dropEndWhile_semicolon_of_not_mem hstart]
      rfl
    have hsplit : body ++ (gap ++ ';' :: back) ++ (ending ++ cs) =
        (body ++ gap) ++ ';' :: (back ++ (ending ++ cs)) := by simp
    rw [hquery, hsplit, splitChars_statement_append, splitChars_statement_of_not_mem hstatement,
      splitChars_statement_blank_append hback, splitChars_statement_blank_append hending]

/-- Lines with one statement each, cut at semicolons. -/
theorem splitChars_statement_lines {cs : List Char} {ls : List (List Char)} (hls : LinesOf cs ls)
    (h : OnePerLine ls) : splitChars .statement cs = (ls.map lineQuery).filter (!·.isEmpty) := by
  -- By the lines: each adds its own query, and a line without its semicolon is the last to add one.
  induction hls with
  | nil => rfl
  | @last line =>
    rcases h.1 with hblank | hends | ⟨hfree, -⟩
    · simpa using splitChars_statement_line (.inl hblank) (List.forall_mem_nil _) []
    · simpa using splitChars_statement_line (.inr hends) (List.forall_mem_nil _) []
    · rw [splitChars_statement_of_not_mem hfree, List.map_singleton, lineQuery_of_not_mem hfree]
  | @cons line ending cs ls _ hends hrest ih =>
    rw [List.map_cons, ← List.singleton_append, List.filter_append, ← ih h.2]
    rcases h.1 with hblank | hstatement | ⟨hfree, hblanks⟩
    · exact splitChars_statement_line (.inl hblank) hends.blank cs
    · exact splitChars_statement_line (.inr hstatement) hends.blank cs
    · -- Nothing but white space follows, so the rest of the content is one piece.
      have hrestBlank := hrest.blank hblanks
      have hback : ∀ c ∈ ending ++ cs, isBlank c = true :=
        List.forall_mem_append.2 ⟨hends.blank, hrestBlank⟩
      have hwhole : ';' ∉ line ++ (ending ++ cs) := fun hmem =>
        (List.mem_append.1 hmem).elim hfree (semicolon_not_mem_of_blank hback)
      rw [splitChars_statement_of_not_mem hwhole, trim_append_blank hback,
        lineQuery_of_not_mem hfree,
        splitChars_statement_of_not_mem (semicolon_not_mem_of_blank hrestBlank),
        trim_of_blank hrestBlank]
      exact (List.append_nil _).symm

/-- Content with one statement on each line is split into the same queries in both modes. -/
theorem split_modes_agree (content : String) (h : OnePerLine (lines content.toList)) :
    split .statement content = split .line content := by
  rw [split, split, splitChars_statement_lines (linesOf_lines content.toList) h, splitChars_line]

/-- Blank lines, a line of white space around a semicolon, both line ends, wide blanks, and a last
    statement without its semicolon. -/
theorem split_modes_agree_wide :
    let content := "SELECT a\u3000; \r\n\n ; \nSELECT\tb\r\n \n"
    OnePerLine (lines content.toList) ∧ split .statement content = ["SELECT a", "SELECT\tb"] ∧
      split .line content = ["SELECT a", "SELECT\tb"] := by
  intro content
  have hlines : lines content.toList = ["SELECT a\u3000; ".toList, [], " ; ".toList,
      "SELECT\tb".toList, " ".toList] := by decide +kernel
  have hblank : ∀ {cs : List Char}, cs.all isBlank = true → ∀ c ∈ cs, isBlank c = true :=
    fun h => List.all_eq_true.1 h
  have hone : OnePerLine (lines content.toList) := by
    rw [hlines]
    refine ⟨.inr (.inl ⟨"SELECT a".toList, "\u3000".toList, " ".toList, by decide, by decide,
      hblank (by decide), hblank (by decide)⟩), .inl (hblank rfl), .inr (.inl ⟨[], " ".toList,
      " ".toList, by decide, by decide, hblank (by decide), hblank (by decide)⟩),
      .inr (.inr ⟨by decide, ?_⟩), .inl (hblank (by decide)), trivial⟩
    exact List.forall_mem_singleton.2 (hblank (by decide))
  have hstatement : split .statement content = ["SELECT a", "SELECT\tb"] := by decide +kernel
  exact ⟨hone, hstatement, (split_modes_agree content hone).symm.trans hstatement⟩

/-! ## Splitting again -/

/-- Semicolons at the end of a line that white space comes between. -/
def Interrupted (line : List Char) : Prop :=
  ∃ front gap run back, line = front ++ ';' :: (gap ++ (run ++ back)) ∧
    gap ≠ [] ∧ (∀ c ∈ gap, isBlank c = true) ∧ run ≠ [] ∧ (∀ c ∈ run, c = ';') ∧
    ∀ c ∈ back, isBlank c = true

theorem splitChars_statement_self {q : List Char} (hends : VisibleEnds q) (h : ';' ∉ q) :
    splitChars .statement q = [q] := by
  rw [splitChars_statement_of_not_mem h, hends.trim_eq]
  simp [hends.nonempty]

/-- A query is its own query in line mode exactly if no semicolon ends it. -/
theorem lineQuery_eq_self_iff {q : List Char} (hends : VisibleEnds q) :
    lineQuery q = q ↔ q.getLast? ≠ some ';' := by
  rw [lineQuery, hends.trim_eq]
  constructor
  · intro h hlast
    -- Dropping from the end twice changes nothing, so neither does the first time.
    have hdrop : dropEndWhile (· == ';') q = q := by
      have hfirst := dropEndWhile_prefix (· == ';') q
      have hsecond := dropEndWhile_prefix isBlank (dropEndWhile (· == ';') q)
      rw [← trimEnd, h] at hsecond
      exact hfirst.eq_of_length_le hsecond.length_le
    exact dropEndWhile_semicolon_iff.1 hdrop hlast
  · intro h
    rw [dropEndWhile_semicolon_iff.2 h]
    exact dropEndWhile_eq_self_iff.2 hends.last

theorem splitChars_line_self_iff {q : List Char} (hends : VisibleEnds q) (h : '\n' ∉ q) :
    splitChars .line q = [q] ↔ q.getLast? ≠ some ';' := by
  rw [← lineQuery_eq_self_iff hends, splitChars_line, lines_of_not_mem h, if_neg hends.nonempty,
    List.map_singleton]
  constructor
  · intro hsplit
    have hmem : q ∈ [lineQuery q].filter (!·.isEmpty) := hsplit ▸ List.mem_singleton.2 rfl
    exact (List.mem_singleton.1 (List.mem_filter.1 hmem).1).symm
  · intro hself
    rw [hself]
    simp [hends.nonempty]

/-- A semicolon ends the query of an interrupted line: the last one before the white space. -/
theorem getLast?_lineQuery_of_interrupted {line : List Char} (h : Interrupted line) :
    (lineQuery line).getLast? = some ';' := by
  obtain ⟨front, gap, run, back, rfl, hgapNe, hgap, hrunNe, hrun, hback⟩ := h
  obtain ⟨run, c, rfl⟩ := (List.eq_nil_or_concat run).resolve_left hrunNe
  rw [List.concat_eq_append, List.forall_mem_append, List.forall_mem_singleton] at hrun
  obtain ⟨hrun, rfl⟩ := hrun
  have hsplit : front ++ ';' :: (gap ++ (run.concat ';' ++ back)) =
      (front ++ ';' :: (gap ++ run)) ++ ';' :: back := by simp
  have hstart : trimStart (front ++ ';' :: (gap ++ run)) =
      ((trimStart front ++ [';']) ++ gap) ++ run := by
    rw [trimStart_append_visible (by decide)]
    simp
  have hrun : ∀ c ∈ run, (c == ';') = true := fun c hc => beq_iff_eq.2 (hrun c hc)
  -- The semicolons are dropped up to the white space, and then that is.
  have hdrop : dropEndWhile (· == ';') ((trimStart front ++ [';']) ++ gap) =
      (trimStart front ++ [';']) ++ gap := by
    refine dropEndWhile_semicolon_iff.2 fun hlast => ?_
    rw [List.getLast?_append_of_ne_nil _ hgapNe] at hlast
    exact semicolon_not_mem_of_blank hgap (List.mem_of_getLast? hlast)
  have hend : trimEnd ((trimStart front ++ [';']) ++ gap) = trimStart front ++ [';'] := by
    rw [trimEnd, dropEndWhile_append hgap]
    exact trimEnd_concat_semicolon (trimStart front)
  rw [hsplit, lineQuery_append_semicolon hback, hstart, dropEndWhile_append hrun, hdrop, hend,
    List.getLast?_concat]

/-- A semicolon that is left at the end of a query has white space after it on the line, and more
    semicolons after that. -/
theorem interrupted_of_getLast?_lineQuery {line : List Char}
    (h : (lineQuery line).getLast? = some ';') : Interrupted line := by
  obtain ⟨front, hfront⟩ := List.getLast?_eq_some_iff.1 h
  obtain ⟨a, back, htext, -, hback⟩ := exists_trim_append line
  obtain ⟨run, hrun, hsemicolons⟩ := exists_dropEndWhile_append (· == ';') (trim line)
  obtain ⟨gap, hgap, hblank⟩ := exists_trimEnd_append (dropEndWhile (· == ';') (trim line))
  rw [← lineQuery] at hgap
  have hgapNe : gap ≠ [] := by
    -- Otherwise the semicolon would have been dropped with the others.
    rintro rfl
    rw [List.append_nil] at hgap
    rw [← hgap] at h
    cases getLast?_dropEndWhile (· == ';') (trim line) ';' h
  have hrunNe : run ≠ [] := by
    -- Otherwise white space would end the trimmed line.
    rintro rfl
    rw [List.append_nil, hgap] at hrun
    obtain ⟨c, hc⟩ := Option.isSome_iff_exists.1 (List.getLast?_isSome.2 hgapNe)
    have hlast : c ∈ (trim line).getLast? := by
      rw [hrun, List.getLast?_append_of_ne_nil _ hgapNe]
      exact hc
    have hvisible := getLast?_dropEndWhile isBlank (trimStart line) c hlast
    rw [hblank c (List.mem_of_getLast? hc)] at hvisible
    cases hvisible
  refine ⟨a ++ front, gap, run, back, ?_, hgapNe, hblank, hrunNe,
    fun c hc => beq_iff_eq.1 (hsemicolons c hc), hback⟩
  calc line = a ++ (trim line ++ back) := htext
    _ = a ++ ((((front ++ [';']) ++ gap) ++ run) ++ back) := by rw [hrun, hgap, hfront]
    _ = (a ++ front) ++ ';' :: (gap ++ (run ++ back)) := by simp

theorem split_ofList_eq_iff (mode : SplitMode) (q : List Char) :
    split mode (String.ofList q) = [String.ofList q] ↔ splitChars mode q = [q] := by
  have hinjective : Function.Injective String.ofList :=
    Function.LeftInverse.injective fun _ => String.toList_ofList
  rw [split, String.toList_ofList, ← List.map_singleton, hinjective.list_map.eq_iff]

/-- Splitting again. In statement mode every query is split into itself. In line mode a query is,
    unless a semicolon ends it, and so are all queries of a content exactly if on none of its
    lines white space comes between semicolons at the end. -/
theorem split_again_exact (content : String) :
    (∀ q ∈ split .statement content, split .statement q = [q]) ∧
    (∀ q ∈ split .line content, split .line q = [q] ↔ q.toList.getLast? ≠ some ';') ∧
    ((∀ q ∈ split .line content, split .line q = [q]) ↔
      ∀ line ∈ lines content.toList, ¬ Interrupted line) := by
  have hline : ∀ q ∈ split .line content,
      split .line q = [q] ↔ q.toList.getLast? ≠ some ';' := by
    intro q hq
    obtain ⟨cs, hcs, rfl⟩ := List.mem_map.1 hq
    rw [split_ofList_eq_iff, String.toList_ofList]
    exact splitChars_line_self_iff (visibleEnds_of_mem_splitChars hcs) (not_mem_of_mem_line hcs)
  refine ⟨?_, hline, ?_⟩
  · intro q hq
    obtain ⟨cs, hcs, rfl⟩ := List.mem_map.1 hq
    rw [split_ofList_eq_iff]
    exact splitChars_statement_self (visibleEnds_of_mem_splitChars hcs)
      (not_mem_of_mem_statement hcs)
  · constructor
    · intro hself line hmem hinterrupted
      have hlast := getLast?_lineQuery_of_interrupted hinterrupted
      have hquery : String.ofList (lineQuery line) ∈ split .line content := by
        refine List.mem_map_of_mem (List.mem_filter.2 ⟨List.mem_map_of_mem hmem, ?_⟩)
        cases hempty : lineQuery line with
        | nil => simp [hempty] at hlast
        | cons c cs => rfl
      refine (hline _ hquery).1 (hself _ hquery) ?_
      rwa [String.toList_ofList]
    · intro hlines q hq
      refine (hline q hq).2 fun hlast => ?_
      obtain ⟨cs, hcs, rfl⟩ := List.mem_map.1 hq
      obtain ⟨line, hmem, rfl⟩ := List.mem_map.1 (List.mem_filter.1 hcs).1
      rw [String.toList_ofList] at hlast
      exact hlines line hmem (interrupted_of_getLast?_lineQuery hlast)

/-- White space between two semicolons at the end of a line leaves the first to its query, though
    no statement keeps one. -/
theorem split_again_interrupted :
    split .line "SELECT b FROM u ;  ;" = ["SELECT b FROM u ;"] ∧
      split .line "SELECT b FROM u ;" = ["SELECT b FROM u"] ∧
      split .statement "SELECT b FROM u ;  ;" = ["SELECT b FROM u"] := by
  decide +kernel

end QueryLint.Source

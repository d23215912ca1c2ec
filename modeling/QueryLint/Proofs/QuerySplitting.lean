/-
  QueryLint.Proofs.QuerySplitting

  Splitting content into queries loses and doubles nothing. Only white space and semicolons are
  left out: what else there is (`solid`) comes through piece by piece and line by line, in order
  (`solid_splitChars`). A statement is the trimmed text between two semicolons, and a query in
  line mode is what one line holds between its blanks and semicolons (`Holds`).

  `split_loses_nothing` says both of every content.
-/
import QueryLint.Proofs.TextCutting
import Mathlib.Data.List.Forall2

namespace QueryLint.Source

open QueryLint.Text

/-! ## What is never left out -/

/-- Neither white space nor a semicolon. -/
def isSolid (c : Char) : Bool :=
  !isBlank c && c != ';'

/-- A text without its white space and semicolons. -/
def solid (cs : List Char) : List Char :=
  cs.filter isSolid

@[simp] theorem solid_append (a b : List Char) : solid (a ++ b) = solid a ++ solid b :=
  List.filter_append a b

theorem solid_eq_nil {cs : List Char} (h : ∀ c ∈ cs, isBlank c = true ∨ c = ';') :
    solid cs = [] := by
  refine List.filter_eq_nil_iff.2 fun c hc => ?_
  rcases h c hc with hblank | rfl
  · simp [isSolid, hblank]
  · decide

theorem solid_of_blank {cs : List Char} (h : ∀ c ∈ cs, isBlank c = true) : solid cs = [] :=
  solid_eq_nil fun c hc => .inl (h c hc)

/-- Changing texts one by one without touching what is solid in them. -/
theorem solid_flatten_map {f : List Char → List Char} (hf : ∀ cs, solid (f cs) = solid cs)
    (texts : List (List Char)) : solid (texts.map f).flatten = solid texts.flatten := by
  rw [solid, solid, List.filter_flatten, List.filter_flatten, List.map_map]
  exact congrArg List.flatten (List.map_congr_left fun cs _ => hf cs)

theorem solid_trim (cs : List Char) : solid (trim cs) = solid cs := by
  obtain ⟨a, b, htext, ha, hb⟩ := exists_trim_append cs
  conv_rhs => rw [htext, solid_append, solid_append, solid_of_blank ha, solid_of_blank hb]
  simp

theorem solid_flatten_pieces (cs : List Char) : solid (pieces ';' cs).flatten = solid cs := by
  induction cs with
  | nil => rfl
  | cons c cs ih =>
    by_cases hc : c = ';'
    · subst hc
      rw [pieces_cons_separator, List.flatten_cons, List.nil_append, ih]
      rfl
    · obtain ⟨piece, rest, hpieces⟩ := List.exists_cons_of_ne_nil (pieces_ne_nil ';' cs)
      rw [hpieces] at ih
      rw [pieces, if_neg hc, hpieces, List.flatten_cons, List.cons_append, ← List.flatten_cons,
        solid, List.filter_cons, ← solid, ih, solid, solid, List.filter_cons]

/-- Lines leave out nothing but what ends them. -/
theorem solid_flatten_lines {cs : List Char} {ls : List (List Char)} (h : LinesOf cs ls) :
    solid ls.flatten = solid cs := by
  induction h with
  | nil => rfl
  | last => simp
  | cons _ hends _ ih =>
    rw [List.flatten_cons, solid_append, ih, solid_append, solid_append,
      solid_of_blank hends.blank, List.nil_append]

/-! ## The query of a line -/

/-- The line is the query with white space before it, and white space and semicolons after it. -/
structure Holds (line q : List Char) : Prop where
  around : ∃ a b, line = a ++ (q ++ b) ∧ (∀ c ∈ a, isBlank c = true) ∧
    ∀ c ∈ b, isBlank c = true ∨ c = ';'
  ends : VisibleEnds q

theorem exists_lineQuery_append (line : List Char) :
    ∃ a b, line = a ++ (lineQuery line ++ b) ∧ (∀ c ∈ a, isBlank c = true) ∧
      ∀ c ∈ b, isBlank c = true ∨ c = ';' := by
  obtain ⟨a, back, htext, ha, hback⟩ := exists_trim_append line
  obtain ⟨run, hrun, hsemicolons⟩ := exists_dropEndWhile_append (· == ';') (trim line)
  obtain ⟨gap, hgap, hblank⟩ := exists_trimEnd_append (dropEndWhile (· == ';') (trim line))
  refine ⟨a, gap ++ (run ++ back), ?_, ha, ?_⟩
  · calc line = a ++ (trim line ++ back) := htext
      _ = a ++ ((dropEndWhile (· == ';') (trim line) ++ run) ++ back) := by rw [← hrun]
      _ = a ++ (((lineQuery line ++ gap) ++ run) ++ back) := by rw [lineQuery, ← hgap]
      _ = a ++ (lineQuery line ++ (gap ++ (run ++ back))) := by simp only [List.append_assoc]
  · intro c hc
    rcases List.mem_append.1 hc with hc | hc
    · exact .inl (hblank c hc)
    · rcases List.mem_append.1 hc with hc | hc
      · exact .inr (beq_iff_eq.1 (hsemicolons c hc))
      · exact .inl (hback c hc)

theorem solid_lineQuery (line : List Char) : solid (lineQuery line) = solid line := by
  obtain ⟨a, b, htext, ha, hb⟩ := exists_lineQuery_append line
  conv_rhs => rw [htext, solid_append, solid_append, solid_of_blank ha, solid_eq_nil hb]
  simp

/-! ## Both modes -/

theorem splitChars_statement (cs : List Char) :
    splitChars .statement cs = ((pieces ';' cs).map trim).filter (!·.isEmpty) := rfl

theorem splitChars_line (cs : List Char) :
    splitChars .line cs = ((lines cs).map lineQuery).filter (!·.isEmpty) := rfl

/-- Splitting keeps all that is solid, in order. -/
theorem solid_splitChars (mode : SplitMode) (cs : List Char) :
    solid (splitChars mode cs).flatten = solid cs := by
  cases mode with
  | statement =>
    rw [splitChars_statement, List.flatten_filter_not_isEmpty, solid_flatten_map solid_trim,
      solid_flatten_pieces]
  | line =>
    rw [splitChars_line, List.flatten_filter_not_isEmpty, solid_flatten_map solid_lineQuery,
      solid_flatten_lines (linesOf_lines cs)]

/-- The results that are not empty, each with what it results from. -/
theorem forall₂_filter_map {f : List Char → List Char} {R : List Char → List Char → Prop}
    (h : ∀ cs, f cs ≠ [] → R cs (f cs)) (texts : List (List Char)) :
    List.Forall₂ R (texts.filter fun cs => !(f cs).isEmpty)
      ((texts.map f).filter (!·.isEmpty)) := by
  rw [List.filter_map, List.forall₂_map_right_iff]
  refine List.forall₂_same.2 fun cs hcs => ?_
  exact h cs (by simpa using (List.mem_filter.1 hcs).2)

theorem isEmpty_trim (cs : List Char) : (!(trim cs).isEmpty) = cs.any fun c => !isBlank c := by
  rw [Bool.eq_iff_iff, Bool.not_eq_true', List.isEmpty_eq_false_iff, Ne, trim_eq_nil_iff]
  simp

theorem forall₂_statement (cs : List Char) :
    List.Forall₂ TrimsTo ((pieces ';' cs).filter fun piece => piece.any fun c => !isBlank c)
      (splitChars .statement cs) := by
  simp only [← isEmpty_trim]
  exact forall₂_filter_map (fun piece => trimsTo_trim) (pieces ';' cs)

theorem forall₂_line (cs : List Char) :
    List.Forall₂ Holds ((lines cs).filter fun line => !(lineQuery line).isEmpty)
      (splitChars .line cs) :=
  forall₂_filter_map (fun line hne => ⟨exists_lineQuery_append line, visibleEnds_lineQuery hne⟩)
    (lines cs)

/-- A statement holds no semicolon. -/
theorem not_mem_of_mem_statement {cs q : List Char} (h : q ∈ splitChars .statement cs) :
    ';' ∉ q := by
  obtain ⟨piece, hpiece, rfl⟩ := List.mem_map.1 (List.mem_filter.1 h).1
  intro hmem
  exact not_mem_of_mem_pieces hpiece ((trim_isInfix piece).subset hmem)

/-- A query in line mode holds no line feed. -/
theorem not_mem_of_mem_line {cs q : List Char} (h : q ∈ splitChars .line cs) : '\n' ∉ q := by
  obtain ⟨line, hline, rfl⟩ := List.mem_map.1 (List.mem_filter.1 h).1
  obtain ⟨a, b, htext, -⟩ := exists_lineQuery_append line
  intro hmem
  refine (linesOf_lines cs).not_mem line hline ?_
  rw [htext]
  exact List.mem_append_right _ (List.mem_append_left _ hmem)

theorem flatMap_split (mode : SplitMode) (content : String) :
    (split mode content).flatMap String.toList = (splitChars mode content.toList).flatten := by
  rw [split, List.flatMap_map]
  simp [List.flatMap_id']

/-- Splitting loses and doubles nothing. In either mode the queries, one after another, are the
    content but for white space and semicolons. In statement mode they are in order the texts
    between semicolons that are not blank, each trimmed, and hold no semicolon. In line mode each
    comes from a line of its own, in the order of the lines, and holds no line feed. -/
theorem split_loses_nothing (content : String) :
    (∀ mode, ((split mode content).flatMap String.toList).filter isSolid =
      content.toList.filter isSolid) ∧
    (∃ ps, ps ≠ [] ∧ [';'].intercalate ps = content.toList ∧ (∀ piece ∈ ps, ';' ∉ piece) ∧
      List.Forall₂ (fun piece q => TrimsTo piece q.toList)
        (ps.filter fun piece => piece.any fun c => !isBlank c) (split .statement content)) ∧
    (∀ q ∈ split .statement content, ';' ∉ q.toList) ∧
    (∃ ls holding, LinesOf content.toList ls ∧ holding.Sublist ls ∧
      List.Forall₂ (fun line q => Holds line q.toList) holding (split .line content)) ∧
    ∀ q ∈ split .line content, '\n' ∉ q.toList := by
  refine ⟨fun mode => ?_, ?_, ?_, ?_, ?_⟩
  · rw [flatMap_split]
    exact solid_splitChars mode content.toList
  · refine ⟨pieces ';' content.toList, pieces_ne_nil _ _, intercalate_pieces _ _,
      fun piece => not_mem_of_mem_pieces, ?_⟩
    rw [split, List.forall₂_map_right_iff]
    simpa using forall₂_statement content.toList
  · intro q hq
    obtain ⟨cs, hcs, rfl⟩ := List.mem_map.1 hq
    simpa using not_mem_of_mem_statement hcs
  · have hlines := forall₂_line content.toList
    refine ⟨lines content.toList, (lines content.toList).filter fun line =>
      !(lineQuery line).isEmpty, linesOf_lines _, List.filter_sublist, ?_⟩
    rw [split, List.forall₂_map_right_iff]
    simpa using hlines
  · intro q hq
    obtain ⟨cs, hcs, rfl⟩ := List.mem_map.1 hq
    simpa using not_mem_of_mem_line hcs

end QueryLint.Source

/-
  QueryLint.Proofs.TextCutting

  Trimming, pieces and lines, said without the functions that make them: trimming leaves the
  visible middle of a text (`TrimsTo`), pieces are what a text is put together from with a
  separator between them (`intercalate_pieces`), and lines end with a line feed, before which one
  carriage return belongs to the end (`LinesOf`).
-/
import QueryLint.Proofs.HiddenParens
import QueryLint.Proofs.NonEmptyQueries
import Mathlib.Data.List.DropRight

namespace QueryLint.Text

/-! ## Trimming -/

theorem dropEndWhile_append {p : Char → Bool} {b : List Char} (hb : ∀ c ∈ b, p c = true)
    (cs : List Char) : dropEndWhile p (cs ++ b) = dropEndWhile p cs := by
  have hback : ∀ c ∈ b.reverse, p c = true := fun c hc => hb c (List.mem_reverse.1 hc)
  rw [dropEndWhile, List.reverse_append, List.dropWhile_append_of_pos hback]
  rfl

theorem dropEndWhile_eq_self_iff {p : Char → Bool} {cs : List Char} :
    dropEndWhile p cs = cs ↔ ∀ c ∈ cs.getLast?, p c = false := by
  constructor
  · intro h
    rw [← h]
    exact getLast?_dropEndWhile p cs
  · intro h
    refine List.rdropWhile_eq_self_iff.2 fun hne => ?_
    rw [h _ (List.getLast?_eq_some_getLast hne)]
    exact Bool.false_ne_true

theorem trim_blank_append {b : List Char} (hb : ∀ c ∈ b, isBlank c = true) (cs : List Char) :
    trim (b ++ cs) = trim cs := by
  rw [trim, trimStart, List.dropWhile_append_of_pos hb]
  rfl

theorem trim_of_blank {cs : List Char} (h : ∀ c ∈ cs, isBlank c = true) : trim cs = [] := by
  rw [trim, trimStart, List.dropWhile_eq_nil_iff.2 h]
  rfl

theorem trim_append_blank {b : List Char} (hb : ∀ c ∈ b, isBlank c = true) (cs : List Char) :
    trim (cs ++ b) = trim cs := by
  rw [trim, trimStart, List.dropWhile_append]
  split
  · rename_i hempty
    have hcs : ∀ c ∈ cs, isBlank c = true :=
      List.dropWhile_eq_nil_iff.1 (List.isEmpty_iff.1 hempty)
    rw [List.dropWhile_eq_nil_iff.2 hb, trim_of_blank hcs]
    rfl
  · exact dropEndWhile_append hb _

/-- White space is dropped up to the first visible character only. -/
theorem trimStart_append_visible {c : Char} (hc : isBlank c = false) (a b : List Char) :
    trimStart (a ++ c :: b) = trimStart a ++ c :: b := by
  rw [trimStart, trimStart, List.dropWhile_append]
  split
  · rename_i hempty
    rw [List.isEmpty_iff.1 hempty, List.dropWhile_cons_of_neg (by simp [hc])]
    rfl
  · rfl

/-- A text with visible ends is trimmed already. -/
theorem VisibleEnds.trim_eq {cs : List Char} (h : VisibleEnds cs) : trim cs = cs := by
  have hstart : trimStart cs = cs := by
    cases cs with
    | nil => rfl
    | cons c cs =>
      rw [trimStart, List.dropWhile_cons_of_neg]
      rw [h.first c rfl]
      exact Bool.false_ne_true
  rw [trim, hstart]
  exact dropEndWhile_eq_self_iff.2 h.last

theorem trim_eq_nil_iff {cs : List Char} : trim cs = [] ↔ ∀ c ∈ cs, isBlank c = true := by
  constructor
  · intro h
    obtain ⟨a, b, htext, ha, hb⟩ := exists_trim_append cs
    rw [htext, h, List.nil_append, List.forall_mem_append]
    exact ⟨ha, hb⟩
  · exact trim_of_blank

/-- The second text is the first without the white space around it. -/
structure TrimsTo (cs q : List Char) : Prop where
  around : ∃ a b, cs = a ++ (q ++ b) ∧ (∀ c ∈ a, isBlank c = true) ∧ ∀ c ∈ b, isBlank c = true
  ends : VisibleEnds q

theorem trimsTo_trim {cs : List Char} (h : trim cs ≠ []) : TrimsTo cs (trim cs) :=
  ⟨exists_trim_append cs, visibleEnds_trim h⟩

/-! ## Pieces -/

theorem pieces_eq_splitOn (separator : Char) (cs : List Char) :
    pieces separator cs = cs.splitOn separator := by
  induction cs with
  | nil => rfl
  | cons c cs ih =>
    rw [pieces, List.splitOn_cons_eq_if_modifyHead, ← ih]
    by_cases hc : c = separator
    · rw [if_pos hc, if_pos (beq_iff_eq.2 hc)]
    · rw [if_neg hc, if_neg (mt beq_iff_eq.1 hc)]
      obtain ⟨piece, rest, hpieces⟩ := List.exists_cons_of_ne_nil (pieces_ne_nil separator cs)
      rw [hpieces]
      rfl

/-- The pieces with the separator between them are the text. -/
theorem intercalate_pieces (separator : Char) (cs : List Char) :
    [separator].intercalate (pieces separator cs) = cs := by
  rw [pieces_eq_splitOn]
  exact List.intercalate_splitOn separator

/-! ## Lines -/

/-- What ends a line before the text goes on: a line feed, or a carriage return and a line feed.
    A carriage return right before the line feed is never part of the line. -/
inductive EndsLine (line : List Char) : List Char → Prop
  | feed : line.getLast? ≠ some '\r' → EndsLine line ['\n']
  | returnFeed : EndsLine line ['\r', '\n']

/-- The lines of a text. The last one need not be ended, and is then not empty. -/
inductive LinesOf : List Char → List (List Char) → Prop
  | nil : LinesOf [] []
  | last {line : List Char} : line ≠ [] → '\n' ∉ line → LinesOf line [line]
  | cons {line ending cs : List Char} {ls : List (List Char)} : '\n' ∉ line →
    EndsLine line ending → LinesOf cs ls → LinesOf (line ++ (ending ++ cs)) (line :: ls)

theorem lines_of_not_mem {cs : List Char} (h : '\n' ∉ cs) :
    lines cs = if cs = [] then [] else [cs] := by
  rw [lines, pieces_of_not_mem h]
  by_cases hcs : cs = [] <;> simp [hcs]

theorem lines_append_feed {line : List Char} (h : '\n' ∉ line) (cs : List Char) :
    lines (line ++ '\n' :: cs) = dropReturn line :: lines cs := by
  obtain ⟨piece, rest, hpieces⟩ := List.exists_cons_of_ne_nil (pieces_ne_nil '\n' cs)
  rw [lines, lines, pieces_append_separator, pieces_of_not_mem h, hpieces]
  rfl

/-- A piece before a line feed is a line and what ends it. -/
theorem exists_endsLine (piece : List Char) :
    ∃ ending, EndsLine (dropReturn piece) ending ∧
      piece ++ ['\n'] = dropReturn piece ++ ending := by
  rw [dropReturn]
  by_cases hlast : piece.getLast? = some '\r'
  · rw [if_pos hlast]
    refine ⟨['\r', '\n'], .returnFeed, ?_⟩
    obtain ⟨front, rfl⟩ := List.getLast?_eq_some_iff.1 hlast
    simp
  · rw [if_neg hlast]
    exact ⟨['\n'], .feed hlast, rfl⟩

theorem linesOf_lines (cs : List Char) : LinesOf cs (lines cs) := by
  induction hlength : cs.length using Nat.strong_induction_on generalizing cs with
  | _ n ih =>
    by_cases hfeed : '\n' ∈ cs
    · -- The text goes on after its first line feed, with a shorter text.
      obtain ⟨piece, rest, rfl, hpiece⟩ := List.eq_append_cons_of_mem hfeed
      obtain ⟨ending, hends, hsplit⟩ := exists_endsLine piece
      have hrest : LinesOf rest (lines rest) := by
        refine ih rest.length ?_ rest rfl
        rw [← hlength, List.length_append, List.length_cons]
        omega
      have hline : '\n' ∉ dropReturn piece := by
        intro hmem
        rw [dropReturn] at hmem
        split at hmem
        · exact hpiece (List.mem_of_mem_dropLast hmem)
        · exact hpiece hmem
      rw [lines_append_feed hpiece, List.append_cons, hsplit, List.append_assoc]
      exact .cons hline hends hrest
    · rw [lines_of_not_mem hfeed]
      split
      · rename_i hnil
        exact hnil ▸ .nil
      · rename_i hne
        exact .last hne hfeed

theorem LinesOf.not_mem {cs : List Char} {ls : List (List Char)} (h : LinesOf cs ls) :
    ∀ line ∈ ls, '\n' ∉ line := by
  induction h with
  | nil => simp
  | last _ hline => simpa using hline
  | cons hline _ _ ih => exact List.forall_mem_cons.2 ⟨hline, ih⟩

theorem EndsLine.blank {line ending : List Char} (h : EndsLine line ending) :
    ∀ c ∈ ending, isBlank c = true := by
  cases h <;> exact List.all_eq_true.1 (by decide)

theorem LinesOf.blank {cs : List Char} {ls : List (List Char)} (h : LinesOf cs ls)
    (hblank : ∀ line ∈ ls, ∀ c ∈ line, isBlank c = true) : ∀ c ∈ cs, isBlank c = true := by
  induction h with
  | nil => simp
  | last => simpa using hblank
  | cons _ hends _ ih =>
    rw [List.forall_mem_cons] at hblank
    rw [List.forall_mem_append, List.forall_mem_append]
    exact ⟨hblank.1, hends.blank, ih hblank.2⟩

end QueryLint.Text

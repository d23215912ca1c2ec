/-
  QueryLint.Proofs.NonEmptyQueries

  The reader and the lexer agree on what is blank. A query that is read begins and ends with a
  visible character in either split mode (`Source.visibleEnds_of_mem_split`); a text has no token
  exactly if it is white space throughout (`Token.tokenize_eq_nil_iff`), and only such a text is
  reported as an empty query (`Checker.emptyQuery_mem_diagnose_iff`). So no query that is read is
  reported so: `Source.read_queries_never_empty`.
-/
import QueryLint.Proofs.DiskRelations
import QueryLint.Proofs.Layout
import QueryLint.Proofs.Outcome

namespace QueryLint

open QueryLint.Text

/-! ## Texts without white space at their ends -/

/-- The text is not empty, and begins and ends with a visible character. -/
structure Text.VisibleEnds (cs : List Char) : Prop where
  nonempty : cs ≠ []
  first : ∀ c ∈ cs.head?, isBlank c = false
  last : ∀ c ∈ cs.getLast?, isBlank c = false

namespace Text

theorem head?_trimStart (cs : List Char) : ∀ c ∈ (trimStart cs).head?, isBlank c = false := by
  intro c hc
  have hfirst := List.head?_dropWhile_not isBlank cs
  rw [trimStart, Option.mem_def] at hc
  rw [hc] at hfirst
  exact hfirst

theorem getLast?_dropEndWhile (p : Char → Bool) (cs : List Char) :
    ∀ c ∈ (dropEndWhile p cs).getLast?, p c = false := by
  intro c hc
  have hfirst := List.head?_dropWhile_not p cs.reverse
  rw [dropEndWhile, List.getLast?_reverse, Option.mem_def] at hc
  rw [hc] at hfirst
  exact hfirst

/-- What is dropped from the end leaves the first character, if it leaves any. -/
theorem head?_of_dropEndWhile {p : Char → Bool} {cs : List Char} {c : Char}
    (h : c ∈ (dropEndWhile p cs).head?) : c ∈ cs.head? := by
  obtain ⟨rest, hrest⟩ := dropEndWhile_prefix p cs
  rw [← hrest, List.head?_append, h]
  rfl

theorem visibleEnds_trim {cs : List Char} (h : trim cs ≠ []) : VisibleEnds (trim cs) :=
  ⟨h, fun c hc => head?_trimStart cs c (head?_of_dropEndWhile hc),
    getLast?_dropEndWhile isBlank (trimStart cs)⟩

/-- A text that begins with a visible character is not white space throughout. -/
theorem VisibleEnds.not_blank {cs : List Char} (h : VisibleEnds cs) :
    ¬ ∀ c ∈ cs, isBlank c = true := by
  intro hblank
  cases cs with
  | nil => exact h.nonempty rfl
  | cons c cs =>
    have hvisible := h.first c rfl
    rw [hblank c List.mem_cons_self] at hvisible
    cases hvisible

end Text

namespace Source

theorem visibleEnds_lineQuery {line : List Char} (h : lineQuery line ≠ []) :
    VisibleEnds (lineQuery line) := by
  refine ⟨h, ?_, getLast?_dropEndWhile isBlank _⟩
  intro c hc
  -- Blanks and semicolons are dropped from the end only, after blanks from the front.
  have htrim := head?_of_dropEndWhile (head?_of_dropEndWhile hc)
  exact head?_trimStart line c (head?_of_dropEndWhile htrim)

/-- In either mode a query begins and ends with a visible character. -/
theorem visibleEnds_of_mem_splitChars {mode : SplitMode} {cs query : List Char}
    (h : query ∈ splitChars mode cs) : VisibleEnds query := by
  cases mode with
  | statement =>
    obtain ⟨hmem, hne⟩ := List.mem_filter.1 h
    obtain ⟨piece, -, rfl⟩ := List.mem_map.1 hmem
    exact visibleEnds_trim (by simpa using hne)
  | line =>
    obtain ⟨hmem, hne⟩ := List.mem_filter.1 h
    obtain ⟨line, -, rfl⟩ := List.mem_map.1 hmem
    exact visibleEnds_lineQuery (by simpa using hne)

theorem visibleEnds_of_mem_queriesOf {label content : String} {mode : SplitMode} {q : Query}
    (h : q ∈ queriesOf label mode content) : VisibleEnds q.sql.toList := by
  obtain ⟨sql, hsql, rfl⟩ := List.mem_map.1 h
  obtain ⟨cs, hcs, rfl⟩ := List.mem_map.1 hsql
  rw [String.toList_ofList]
  exact visibleEnds_of_mem_splitChars hcs

end Source

/-! ## Texts without tokens -/

namespace Token

theorem Lexeme.face?_eq_none_iff {l : Lexeme} : l.face? = none ↔ l.lexClass = .blank := by
  rw [Lexeme.face?, Option.map_eq_none_iff]
  cases l.lexClass <;> decide

/-- A text has no token exactly if it is white space throughout. -/
theorem tokenize_eq_nil_iff (sql : String) :
    tokenize sql = .ok [] ↔ ∀ c ∈ sql.toList, isBlank c = true := by
  rw [tokenize_eq_ok_iff, cut_and_iff (P := fun ls => [] = tokensOf ls)]
  constructor
  · rintro ⟨ls, htext, hlexed, -, hnone⟩
    -- No lexeme stands for a token, so each is a run of white space.
    have hfaces := map_face_tokensOf ls
    rw [← hnone, List.map_nil, eq_comm, List.filterMap_eq_nil_iff] at hfaces
    intro c hc
    rw [htext, List.append_nil, textOf, List.mem_flatten] at hc
    obtain ⟨text, htext, hc⟩ := hc
    obtain ⟨l, hl, rfl⟩ := List.mem_map.1 htext
    have hshape := shape_of_lexed hlexed l hl
    rw [Lexeme.face?_eq_none_iff.1 (hfaces l hl)] at hshape
    exact hshape.2 c hc
  · intro hblank
    by_cases hnil : sql.toList = []
    · exact ⟨[], hnil, trivial, firstMatch?_nil, rfl⟩
    · have hlexeme : (Lexeme.mk .blank sql.toList).IsFirstMatch [] :=
        Lexeme.isFirstMatch_blank_iff.2 ⟨hnil, hblank, startsVisible_nil⟩
      exact ⟨[⟨.blank, sql.toList⟩], by simp, ⟨hlexeme, trivial⟩, firstMatch?_nil, rfl⟩

end Token

/-- A query is reported as empty exactly if it has no token. -/
theorem Checker.emptyQuery_mem_diagnose_iff {c : Checker} (hd : c.dialect.Offered) (sql : String) :
    emptyQuery ∈ c.diagnose sql ↔ Token.tokenize sql = .ok [] := by
  constructor
  · intro hmem
    obtain ⟨o, ho⟩ := Outcome.exists_arises c.dialect sql
    have hreports := reports_of_arises hd ho
    cases o with
    | lexical =>
      obtain ⟨line, explanation, hds, -⟩ := hreports
      rw [hds, List.mem_singleton] at hmem
      cases congrArg Diagnostic.category hmem
    | empty => exact ho
    | crashed =>
      obtain ⟨explanation, hds⟩ := hreports
      rw [hds, List.mem_singleton] at hmem
      cases congrArg Diagnostic.category hmem
    | staged =>
      obtain ⟨t, ts, S, G, D, E, -, hparts, hds⟩ := hreports
      rw [hds] at hmem
      exact absurd hmem (hparts.emptyQuery_not_mem rfl)
  · intro htokens
    rw [c.diagnose_empty htokens]
    exact List.mem_singleton.2 rfl

/-! ## Queries that are read -/

namespace Source

/-- The queries read from a file are what its text is cut into. -/
theorem heldAt_of_readOne {machine : Machine} {path : String} {mode : SplitMode}
    {queries : List Query}
    (h : ((readOne Machine.host path mode).run.run machine).1 = .ok queries) :
    HeldAt machine.disk path mode queries :=
  (((meets_readOne path mode machine rfl).2 queries _).1 ⟨h, rfl⟩).1

/-- Every query read from a file, in either mode, begins and ends with a visible character and is
    reported as empty against no dialect, with or without the extended checks. A text has no
    token exactly if it is white space throughout. -/
theorem read_queries_never_empty :
    (∀ (machine : Machine) (path : String) (mode : SplitMode) (queries : List Query),
      ((readOne Machine.host path mode).run.run machine).1 = .ok queries →
        ∀ q ∈ queries, VisibleEnds q.sql.toList ∧
          ∀ (d : Dialect) (extended : Bool), d.Offered →
            emptyQuery ∉ (Checker.mk d extended).diagnose q.sql) ∧
    ∀ sql : String, Token.tokenize sql = .ok [] ↔ ∀ c ∈ sql.toList, isBlank c = true := by
  refine ⟨?_, Token.tokenize_eq_nil_iff⟩
  intro machine path mode queries hread q hq
  obtain ⟨content, -, rfl⟩ := heldAt_of_readOne hread
  have hends := visibleEnds_of_mem_queriesOf hq
  refine ⟨hends, fun d extended hd hempty => ?_⟩
  have htokens := (Checker.emptyQuery_mem_diagnose_iff hd q.sql).1 hempty
  exact hends.not_blank ((Token.tokenize_eq_nil_iff q.sql).1 htokens)

/-- A file with a blank line, a line of semicolons, and a query between wide blanks. -/
theorem read_queries_never_empty_wide :
    let content := "\u2003 \n ;; ;\n\u3000SELECT a\u3000;\u2003"
    let disk : Disk := { entries := [(Place.here.child "q.sql", .file content.toUTF8)] }
    ((readOne Machine.host "q.sql" .line).run.run (.ofDisk disk "noon")).1 =
        .ok [⟨"q.sql", ";;"⟩, ⟨"q.sql", "SELECT a"⟩] ∧
      VisibleEnds ";;".toList ∧ emptyQuery ∉ (Checker.mk .ansi true).diagnose ";;" := by
  intro content disk
  have hname : Path.IsName "q.sql" := by decide
  have hfound : disk.resolve .reach "q.sql" =
      .ok (.found (Place.here.child "q.sql") (.file content.toUTF8)) :=
    (Disk.resolve_of_isName hname (by decide) .reach).2 _ rfl fun _ h => nomatch h
  have hheld : HeldAt disk "q.sql" .line [⟨"q.sql", ";;"⟩, ⟨"q.sql", "SELECT a"⟩] :=
    ⟨content, Disk.readText_of_resolve hfound, by decide +kernel⟩
  have hread := ((meets_readOne "q.sql" .line (.ofDisk disk "noon") rfl).2 _ _).2 ⟨hheld, rfl⟩
  have hquery := read_queries_never_empty.1 _ _ _ _ hread.1 ⟨"q.sql", ";;"⟩ List.mem_cons_self
  exact ⟨hread.1, hquery.1, hquery.2 .ansi true (.inl List.mem_cons_self)⟩

end Source

end QueryLint

/-
  QueryLint.Proofs.Layout

  Verdicts do not depend on layout. `Respaced` writes lexemes out again with other white space
  in the place of blank lexemes. The lexer finds the other lexemes again: they see nothing
  behind the next white space, and where white space stood some still stands. White space
  added or dropped at either end only changes the blank lexeme there. So the tokens keep their
  classes and texts, and the outline of the text stays as it is.

  `Checker.verdict_ignores_layout` draws the two together.
-/
import QueryLint.Proofs.CrashFree
import QueryLint.Proofs.LeadingRun
import QueryLint.Proofs.Verdict

namespace QueryLint.Token

open QueryLint.Text

/-- Lexemes written out with some other white space in the place of each blank one. -/
inductive Respaced : List Lexeme → List Char → Prop
  | nil : Respaced [] []
  | keep {l : Lexeme} {ls : List Lexeme} {cs : List Char} :
    l.lexClass ≠ .blank → Respaced ls cs → Respaced (l :: ls) (l.text ++ cs)
  | respace {l : Lexeme} {ls : List Lexeme} {g cs : List Char} :
    l.lexClass = .blank → g ≠ [] → (∀ c ∈ g, isBlank c = true) → Respaced ls cs →
      Respaced (l :: ls) (g ++ cs)

/-! ## What is kept of the tokens -/

/-- The class and the text of a token, without its line. -/
def face (t : Token) : Kind × String :=
  (t.kind, t.text)

/-- The class and the text of a lexeme's token; blanks have none. -/
def Lexeme.face? (l : Lexeme) : Option (Kind × String) :=
  l.lexClass.kind?.map fun kind => (kind, l.tokenText)

@[simp] theorem filterMap_face?_blank (g : List Char) (ls : List Lexeme) :
    (⟨.blank, g⟩ :: ls).filterMap Lexeme.face? = ls.filterMap Lexeme.face? := rfl

theorem map_face_ofLexemes (line : Nat) (ls : List Lexeme) :
    (ofLexemes line ls).map face = ls.filterMap Lexeme.face? := by
  induction ls generalizing line with
  | nil => rfl
  | cons l ls ih =>
    have hhere : (l.token? line).toList.map face = l.face?.toList := by
      rw [Lexeme.token?, Lexeme.face?]
      cases l.lexClass.kind? <;> rfl
    rw [ofLexemes, List.map_append, hhere, ih]
    cases hface : l.face? with
    | none => rw [List.filterMap_cons_none hface]; rfl
    | some f => rw [List.filterMap_cons_some hface]; rfl

theorem bare_of_face {ts us : List Token} (h : ts.map face = us.map face) :
    ts.map bare = us.map bare := by
  have hview : ∀ vs : List Token,
      vs.map bare = (vs.map face).map fun f => bare ⟨f.1, f.2, 1⟩ := by
    intro vs
    rw [List.map_map]
    rfl
  rw [hview, hview, h]

theorem leadingText?_of_face {ts us : List Token} (h : ts.map face = us.map face) :
    Statement.leadingText? ts = Statement.leadingText? us := by
  have hview : ∀ vs : List Token, Statement.leadingText? vs = (vs.map face).head?.map Prod.snd := by
    intro vs
    cases vs <;> rfl
  rw [hview, hview, h]

/-- The text is lexemes to its end, and its tokens have these classes and texts. -/
def Reads (cs : List Char) (fs : List (Kind × String)) : Prop :=
  ∃ ls, cs = textOf ls ∧ Lexed ls [] ∧ ls.filterMap Lexeme.face? = fs

theorem map_face_tokensOf (ls : List Lexeme) :
    (tokensOf ls).map face = ls.filterMap Lexeme.face? := by
  rw [← ofLexemes_one_eq, map_face_ofLexemes]

theorem exists_tokenize_of_reads {sql : String} {fs : List (Kind × String)}
    (h : Reads sql.toList fs) : ∃ ts, tokenize sql = .ok ts ∧ ts.map face = fs := by
  obtain ⟨ls, htext, hlexed, hfaces⟩ := h
  have hcut : cut sql.toList = ⟨ls, []⟩ :=
    cut_eq_iff.2 ⟨by rw [htext, List.append_nil], hlexed, firstMatch?_nil⟩
  refine ⟨tokensOf ls, tokenize_eq_ok_iff.2 ?_, (map_face_tokensOf ls).trans hfaces⟩
  rw [hcut]
  exact ⟨rfl, rfl⟩

/-! ## What follows lexemes -/

theorem lexed_append_iff {ls ms : List Lexeme} {r : List Char} :
    Lexed (ls ++ ms) r ↔ Lexed ls (textOf ms ++ r) ∧ Lexed ms r := by
  induction ls with
  | nil => simp [Lexed]
  | cons m ls ih =>
    rw [List.cons_append, Lexed, ih, textOf_append, List.append_assoc, Lexed, and_assoc]

theorem lexed_concat_iff {ls : List Lexeme} {l : Lexeme} {r : List Char} :
    Lexed (ls ++ [l]) r ↔ Lexed ls (l.text ++ r) ∧ l.IsFirstMatch r := by
  simp [lexed_append_iff, Lexed]

/-- To a lexeme before it, the second text looks like the first: their leading runs are the
    same, and white space does not begin the second unless it begins the first. -/
structure LooksLike (r r' : List Char) : Prop where
  leading : leading r = leading r'
  start : StartsVisible r → StartsVisible r'

theorem LooksLike.append_left {r r' : List Char} (h : LooksLike r r') (a : List Char) :
    LooksLike (a ++ r) (a ++ r') := by
  refine ⟨leading_append_congr a h.leading, ?_⟩
  cases a with
  | nil => exact h.start
  | cons c a => exact id

theorem looksLike_blank {g g' : List Char} (hg : g ≠ []) (hg' : g' ≠ [])
    (hblank : ∀ c ∈ g, isBlank c = true) (hblank' : ∀ c ∈ g', isBlank c = true)
    (r r' : List Char) : LooksLike (g ++ r) (g' ++ r') := by
  obtain ⟨c, g, rfl⟩ := List.exists_cons_of_ne_nil hg
  obtain ⟨d, g', rfl⟩ := List.exists_cons_of_ne_nil hg'
  have hc := hblank c List.mem_cons_self
  have hd := hblank' d List.mem_cons_self
  refine ⟨(leading_blank hc (g ++ r)).trans (leading_blank hd (g' ++ r')).symm, ?_⟩
  intro hstart
  have hvisible := hstart c rfl
  rw [hc] at hvisible
  cases hvisible

/-- White space at the end of a text changes nothing for what stands before the text. -/
theorem looksLike_concat {a : List Char} (ha : a ≠ []) {c : Char} (hc : isBlank c = true) :
    LooksLike a (a ++ [c]) := by
  constructor
  · have hlead := leading_append_congr a ((leading_blank hc []).trans leading_nil.symm).symm
    rwa [List.append_nil] at hlead
  · cases a with
    | nil => exact absurd rfl ha
    | cons d a => exact id

/-- One lexeme, whatever its class, before two texts that look alike to it. -/
theorem Lexeme.IsFirstMatch.of_looksLike {l : Lexeme} {r r' : List Char} (h : l.IsFirstMatch r)
    (hr : LooksLike r r') : l.IsFirstMatch r' := by
  by_cases hl : l.lexClass = .blank
  · obtain ⟨k, g⟩ := l
    cases hl
    obtain ⟨hne, hblank, hstart⟩ := Lexeme.isFirstMatch_blank_iff.1 h
    exact Lexeme.isFirstMatch_blank_iff.2 ⟨hne, hblank, hr.start hstart⟩
  · exact h.of_leading hl hr.leading

theorem Lexed.of_looksLike {ls : List Lexeme} {r r' : List Char} (h : Lexed ls r)
    (hr : LooksLike r r') : Lexed ls r' := by
  induction ls with
  | nil => trivial
  | cons l ls ih => exact ⟨h.1.of_looksLike (hr.append_left _), ih h.2⟩

/-! ## White space at either end -/

theorem startsVisible_nil : StartsVisible [] := by
  intro c hc
  cases hc

theorem Reads.of_cons_blank {c : Char} (hc : isBlank c = true) {cs : List Char}
    {fs : List (Kind × String)} (h : Reads (c :: cs) fs) : Reads cs fs := by
  obtain ⟨ls, htext, hlexed, rfl⟩ := h
  cases ls with
  | nil => cases htext
  | cons l ls =>
    obtain ⟨hl, hls⟩ := hlexed
    obtain ⟨k, g⟩ := l
    cases g with
    | nil => exact absurd rfl hl.nonempty
    | cons d g =>
      -- The white space belongs to a blank lexeme, which is shortened or left out.
      injection htext with hhead htail
      subst hhead
      have hk : k = .blank := hl.blank_of_head rfl hc
      subst hk
      obtain ⟨-, hblank, hstart⟩ := Lexeme.isFirstMatch_blank_iff.1 hl
      by_cases hg : g = []
      · subst hg
        exact ⟨ls, htail, hls, by simp⟩
      · have hfirst := Lexeme.isFirstMatch_blank_iff.2
          ⟨hg, fun x hx => hblank x (List.mem_cons_of_mem _ hx), hstart⟩
        exact ⟨⟨.blank, g⟩ :: ls, htail, ⟨hfirst, hls⟩, by simp⟩

theorem Reads.cons_blank {c : Char} (hc : isBlank c = true) {cs : List Char}
    {fs : List (Kind × String)} (h : Reads cs fs) : Reads (c :: cs) fs := by
  obtain ⟨ls, rfl, hlexed, rfl⟩ := h
  by_cases hstart : StartsVisible (textOf ls ++ [])
  · have hsingle : ∀ d ∈ [c], isBlank d = true := by simp [hc]
    have hfirst := Lexeme.isFirstMatch_blank_iff.2 ⟨List.cons_ne_nil c [], hsingle, hstart⟩
    exact ⟨⟨.blank, [c]⟩ :: ls, rfl, ⟨hfirst, hlexed⟩, by simp⟩
  · -- White space already begins the text, and its lexeme takes the new one in.
    cases ls with
    | nil => exact absurd startsVisible_nil hstart
    | cons l ls =>
      obtain ⟨hl, hls⟩ := hlexed
      obtain ⟨k, g⟩ := l
      have hk : k = .blank := by
        by_contra hk
        apply hstart
        have hvisible := (hl.visible_ends hk).1
        cases g with
        | nil => exact absurd rfl hl.nonempty
        | cons d g => exact hvisible
      subst hk
      obtain ⟨-, hblank, hrest⟩ := Lexeme.isFirstMatch_blank_iff.1 hl
      have hfirst := Lexeme.isFirstMatch_blank_iff.2
        ⟨List.cons_ne_nil c g, List.forall_mem_cons.2 ⟨hc, hblank⟩, hrest⟩
      exact ⟨⟨.blank, c :: g⟩ :: ls, rfl, ⟨hfirst, hls⟩, by simp⟩

theorem Reads.of_concat_blank {c : Char} (hc : isBlank c = true) {cs : List Char}
    {fs : List (Kind × String)} (h : Reads (cs ++ [c]) fs) : Reads cs fs := by
  obtain ⟨ls, htext, hlexed, rfl⟩ := h
  rcases List.eq_nil_or_concat' ls with rfl | ⟨ls, ⟨k, t⟩, rfl⟩
  · simp at htext
  · rw [lexed_concat_iff, List.append_nil] at hlexed
    obtain ⟨hls, hl⟩ := hlexed
    rcases List.eq_nil_or_concat' t with rfl | ⟨g, d, rfl⟩
    · exact absurd rfl hl.nonempty
    · -- As at the beginning, but the lexemes before it now see less white space behind them.
      rw [textOf_append, textOf_cons, textOf_nil, List.append_nil, ← List.append_assoc] at htext
      obtain ⟨rfl, hd⟩ := List.append_inj' htext rfl
      cases hd
      have hk : k = .blank := hl.blank_of_getLast List.getLast?_concat hc
      subst hk
      obtain ⟨-, hblank, -⟩ := Lexeme.isFirstMatch_blank_iff.1 hl
      by_cases hg : g = []
      · subst hg
        have hbefore : Lexed ls [] :=
          hls.of_looksLike ⟨leading_blank hc [], fun _ => startsVisible_nil⟩
        exact ⟨ls, by simp, hbefore, by simp⟩
      · have hgblank : ∀ x ∈ g, isBlank x = true := fun x hx =>
          hblank x (List.mem_append_left _ hx)
        have hlast := Lexeme.isFirstMatch_blank_iff.2 ⟨hg, hgblank, startsVisible_nil⟩
        have hbefore : Lexed ls (g ++ []) :=
          hls.of_looksLike (looksLike_blank hg hg hgblank hgblank [c] [])
        exact ⟨ls ++ [⟨.blank, g⟩], by simp, lexed_concat_iff.2 ⟨hbefore, hlast⟩, by simp⟩

theorem Reads.concat_blank {c : Char} (hc : isBlank c = true) {cs : List Char}
    {fs : List (Kind × String)} (h : Reads cs fs) : Reads (cs ++ [c]) fs := by
  obtain ⟨ls, rfl, hlexed, rfl⟩ := h
  have hnew : (Lexeme.mk .blank [c]).IsFirstMatch [] :=
    Lexeme.isFirstMatch_blank_iff.2 ⟨List.cons_ne_nil c [], by simp [hc], startsVisible_nil⟩
  rcases List.eq_nil_or_concat' ls with rfl | ⟨ls, ⟨k, g⟩, rfl⟩
  · exact ⟨[⟨.blank, [c]⟩], rfl, ⟨hnew, trivial⟩, rfl⟩
  · rw [lexed_concat_iff, List.append_nil] at hlexed
    obtain ⟨hls, hl⟩ := hlexed
    have hbefore := hls.of_looksLike (looksLike_concat hl.nonempty hc)
    by_cases hk : k = .blank
    · subst hk
      obtain ⟨hne, hblank, hstart⟩ := Lexeme.isFirstMatch_blank_iff.1 hl
      have hlast : (Lexeme.mk .blank (g ++ [c])).IsFirstMatch [] := by
        refine Lexeme.isFirstMatch_blank_iff.2 ⟨by simp, ?_, hstart⟩
        rw [List.forall_mem_append]
        exact ⟨hblank, by simp [hc]⟩
      rw [← List.append_nil (g ++ [c])] at hbefore
      exact ⟨ls ++ [⟨.blank, g ++ [c]⟩], by simp, lexed_concat_iff.2 ⟨hbefore, hlast⟩, by simp⟩
    · have hkept : Lexed (ls ++ [⟨k, g⟩]) ([c] ++ []) :=
        lexed_concat_iff.2 ⟨hbefore, hl.of_leading hk (leading_blank hc []).symm⟩
      refine ⟨ls ++ [⟨k, g⟩] ++ [⟨.blank, [c]⟩], by simp, lexed_concat_iff.2 ⟨hkept, hnew⟩, ?_⟩
      rw [List.filterMap_append]
      exact List.append_nil _

theorem reads_trim (cs : List Char) (fs : List (Kind × String)) :
    Reads (trim cs) fs ↔ Reads cs fs := by
  have hfront : ∀ p cs : List Char, (∀ c ∈ p, isBlank c = true) →
      (Reads (p ++ cs) fs ↔ Reads cs fs) := by
    intro p cs hp
    induction p with
    | nil => rfl
    | cons c p ih =>
      rw [List.forall_mem_cons] at hp
      rw [List.cons_append, ← ih hp.2]
      exact ⟨.of_cons_blank hp.1, .cons_blank hp.1⟩
  have hback : ∀ s cs : List Char, (∀ c ∈ s, isBlank c = true) →
      (Reads (cs ++ s) fs ↔ Reads cs fs) := by
    intro s cs hs
    induction s generalizing cs with
    | nil => rw [List.append_nil]
    | cons c s ih =>
      rw [List.forall_mem_cons] at hs
      rw [List.append_cons, ih _ hs.2]
      exact ⟨.of_concat_blank hs.1, .concat_blank hs.1⟩
  obtain ⟨s, hs, hblank⟩ := exists_trimEnd_append (trimStart cs)
  rw [trim, ← hback s _ hblank, ← hs, trimStart,
    ← hfront (cs.takeWhile isBlank) _ fun c hc => List.mem_takeWhile_imp hc,
    List.takeWhile_append_dropWhile]

/-! ## White space between lexemes -/

/-- Lexemes written out with other white space are read as before. -/
theorem Respaced.lexed {ls : List Lexeme} {es : List Char} (h : Respaced ls es)
    (hlexed : Lexed ls []) :
    ∃ ms, es = textOf ms ∧ Lexed ms [] ∧
      ms.filterMap Lexeme.face? = ls.filterMap Lexeme.face? ∧ LooksLike (textOf ls) es := by
  induction h with
  | nil => exact ⟨[], rfl, trivial, rfl, rfl, id⟩
  | @keep l ls es hl _ ih =>
    obtain ⟨hfirst, hls⟩ := hlexed
    obtain ⟨ms, rfl, hms, hfaces, hlooks⟩ := ih hls
    rw [List.append_nil] at hfirst
    have hkept := hfirst.of_looksLike hlooks
    rw [← List.append_nil (textOf ms)] at hkept
    refine ⟨l :: ms, rfl, ⟨hkept, hms⟩, ?_, hlooks.append_left l.text⟩
    rw [List.filterMap_cons, List.filterMap_cons, hfaces]
  | @respace l ls g es hl hne hblank _ ih =>
    obtain ⟨hfirst, hls⟩ := hlexed
    obtain ⟨ms, rfl, hms, hfaces, hlooks⟩ := ih hls
    obtain ⟨k, t⟩ := l
    cases hl
    rw [List.append_nil] at hfirst
    obtain ⟨hne', hblank', hstart⟩ := Lexeme.isFirstMatch_blank_iff.1 hfirst
    -- What followed the white space was visible, and still is.
    have hnew := Lexeme.isFirstMatch_blank_iff.2 ⟨hne, hblank, hlooks.start hstart⟩
    rw [← List.append_nil (textOf ms)] at hnew
    refine ⟨⟨.blank, g⟩ :: ms, rfl, ⟨hnew, hms⟩, ?_,
      looksLike_blank hne' hne hblank' hblank (textOf ls) (textOf ms)⟩
    simp [hfaces]

theorem gapAfter_of_blank {g : List Char} (hne : g ≠ []) (hg : ∀ c ∈ g, isBlank c = true)
    (gap : Bool) : gapAfter gap g = true := by
  rw [gapAfter, List.getLast?_eq_some_getLast hne]
  exact hg _ (List.getLast_mem hne)

theorem Respaced.outlineFrom_eq {ls : List Lexeme} {es : List Char} (h : Respaced ls es)
    (hlexed : Lexed ls []) (gap : Bool) : outlineFrom gap es = outlineFrom gap (textOf ls) := by
  induction h generalizing gap with
  | nil => rfl
  | keep _ _ ih => rw [textOf_cons, outlineFrom_append, outlineFrom_append, ih hlexed.2]
  | @respace l ls g es hl hne hblank _ ih =>
    obtain ⟨hne', hblank'⟩ := hl ▸ hlexed.1.shape
    rw [textOf_cons, outlineFrom_append, outlineFrom_append, outlineFrom_of_blank hblank,
      outlineFrom_of_blank hblank', gapAfter_of_blank hne hblank, gapAfter_of_blank hne' hblank',
      ih hlexed.2]

end QueryLint.Token

namespace QueryLint.Checker

open QueryLint.Text QueryLint.Token

theorem check_ne_lexical (c : Checker) {sql : String} {ts : List Token}
    (h : tokenize sql = .ok ts) (e : LexError) : c.check sql ≠ .error (.lexical e) := by
  cases hstatement : Statement.classify? ts with
  | none => simp [check, h, hstatement]
  | some statement =>
    rw [check_of_tokens c h hstatement]
    cases c.stages sql statement ts <;> simp [Except.mapError]

/-- A text that has tokens keeps their classes, texts and order, and its diagnostics, when its
    white space between lexemes is replaced by any other and white space is added or dropped
    at either end. -/
theorem verdict_ignores_layout {a b : String} {ts : List Token} (ha : tokenize a = .ok ts)
    {es : List Char} (hes : Respaced (cut a.toList).lexemes es)
    (hb : trim b.toList = trim es) :
    ∃ us, tokenize b = .ok us ∧ us.map face = ts.map face ∧
      ∀ d ∈ Dialect.builtin, ∀ extended : Bool, ∃ ds,
        (Checker.mk d extended).check a = .ok ds ∧ (Checker.mk d extended).check b = .ok ds := by
  obtain ⟨hrest, rfl⟩ := tokenize_eq_ok_iff.1 ha
  have hcut : cut a.toList = ⟨(cut a.toList).lexemes, []⟩ := by rw [← hrest]
  obtain ⟨htext, hlexed, -⟩ := cut_eq_iff.1 hcut
  rw [List.append_nil] at htext
  have hreads : Reads b.toList ((cut a.toList).lexemes.filterMap Lexeme.face?) := by
    obtain ⟨ms, hms, hmsLexed, hfaces, -⟩ := hes.lexed hlexed
    rw [← reads_trim, hb, reads_trim]
    exact ⟨ms, hms, hmsLexed, hfaces⟩
  obtain ⟨us, hus, hfaces⟩ := exists_tokenize_of_reads hreads
  rw [← map_face_tokensOf] at hfaces
  refine ⟨us, hus, hfaces, ?_⟩
  intro d hd extended
  have houtline : outline a.toList = outline b.toList := by
    rw [← outline_trim b.toList, hb, outline_trim, outline, outline, hes.outlineFrom_eq hlexed,
      ← htext]
  have hsame := check_congr (c := ⟨d, extended⟩) hd houtline ha hus (bare_of_face hfaces.symm)
    (leadingText?_of_face hfaces.symm)
  rcases check_builtin a hd extended with ⟨e, he⟩ | ⟨ds, hds, -⟩
  · exact absurd he (check_ne_lexical _ ha e)
  · exact ⟨ds, hds, hsame ▸ hds⟩

/-- A literal that holds white space is kept, two blanks become a line break, and white space
    comes in before and goes away after. -/
theorem verdict_ignores_layout_literal :
    tokenize "SELECT  'a  b'\t" = .ok [⟨.keyword, "SELECT", 1⟩, ⟨.string, "'a  b'", 1⟩] ∧
    ∃ us, tokenize " SELECT\n'a  b'" = .ok us ∧
      us.map face = [(.keyword, "SELECT"), (.string, "'a  b'")] ∧
      ∀ d ∈ Dialect.builtin, ∀ extended : Bool, ∃ ds,
        (Checker.mk d extended).check "SELECT  'a  b'\t" = .ok ds ∧
          (Checker.mk d extended).check " SELECT\n'a  b'" = .ok ds := by
  have htokens : tokenize "SELECT  'a  b'\t" =
      .ok [⟨.keyword, "SELECT", 1⟩, ⟨.string, "'a  b'", 1⟩] := by decide +kernel
  have hcut : (cut "SELECT  'a  b'\t".toList).lexemes =
      [⟨.keyword, "SELECT".toList⟩, ⟨.blank, "  ".toList⟩, ⟨.string, "'a  b'".toList⟩,
        ⟨.blank, "\t".toList⟩] := by decide +kernel
  have hrespaced : Respaced (cut "SELECT  'a  b'\t".toList).lexemes
      ("SELECT".toList ++ ("\n".toList ++ ("'a  b'".toList ++ ("\t".toList ++ [])))) := by
    rw [hcut]
    refine .keep (by decide) (.respace rfl (by decide) ?_ (.keep (by decide)
      (.respace rfl (by decide) ?_ .nil)))
    · exact List.all_eq_true.1 (show "\n".toList.all isBlank = true by decide)
    · exact List.all_eq_true.1 (show "\t".toList.all isBlank = true by decide)
  exact ⟨htokens, verdict_ignores_layout htokens hrespaced (by decide)⟩

end QueryLint.Checker

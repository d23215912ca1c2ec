/-
  QueryLint.Proofs.LeadingRun

  How far the lexer looks. A pattern that reads no white space and asks for word boundaries
  sees nothing behind the first white space, so what it matches depends on the leading run of
  the text alone (`Pattern.Visible.matched?_congr`). Seven of the nine lexical classes have
  such a pattern. A string literal may hold white space, but its match ends at its closing
  quote.

  `Lexeme.IsFirstMatch.of_leading` says the same for lexemes: a lexeme that is not blank stays
  the first match when what follows it is changed behind the next white space.
  `Lexeme.isFirstMatch_blank_iff` says which blank lexemes there are.
-/
import QueryLint.Proofs.LexemeShape
import QueryLint.Proofs.Outline
import Mathlib.Data.List.Forall2

namespace QueryLint.Text

/-! ## Classes without white space -/

/-- The characters of a set. -/
def CharSet.toList (s : CharSet) : List Char :=
  s.ranges.flatMap fun r => (List.range (r.2 + 1 - r.1)).map fun i => Char.ofNat (r.1 + i)

theorem CharSet.mem_toList {s : CharSet} {c : Char} (h : s.contains c = true) : c ∈ s.toList := by
  obtain ⟨r, hr, hlow, hhigh⟩ := CharSet.contains_iff.1 h
  refine List.mem_flatMap.2 ⟨r, hr, List.mem_map.2 ⟨c.toNat - r.1, ?_, ?_⟩⟩
  · rw [List.mem_range]
    omega
  · rw [Nat.add_sub_cancel' hlow, Char.ofNat_toNat]

/-- The class holds no white space. -/
def HoldsNoBlank (p : Char → Bool) : Prop :=
  ∀ c, isBlank c = true → p c = false

theorem holdsNoBlank_of_all {p : Char → Bool} (h : (blanks.toList.all fun c => !p c) = true) :
    HoldsNoBlank p := by
  intro c hc
  have hnot := List.all_eq_true.1 h c (CharSet.mem_toList hc)
  rwa [Bool.not_eq_true'] at hnot

theorem HoldsNoBlank.visible {p : Char → Bool} (hp : HoldsNoBlank p) {c : Char} (hc : p c = true) :
    isBlank c = false := by
  cases hblank : isBlank c with
  | false => rfl
  | true =>
    have hnot := hp c hblank
    rw [hc] at hnot
    cases hnot

theorem holdsNoBlank_isWord : HoldsNoBlank isWord :=
  holdsNoBlank_of_all (by decide +kernel)

/-! ## The leading run -/

/-- The text up to the first white space. -/
def leading (cs : List Char) : List Char :=
  cs.takeWhile fun c => !isBlank c

@[simp] theorem leading_nil : leading [] = [] := rfl

theorem leading_blank {c : Char} (hc : isBlank c = true) (cs : List Char) :
    leading (c :: cs) = [] :=
  List.takeWhile_cons_of_neg (by simp [hc])

theorem leading_visible {c : Char} (hc : isBlank c = false) (cs : List Char) :
    leading (c :: cs) = c :: leading cs :=
  List.takeWhile_cons_of_pos (by simp [hc])

theorem leading_append_congr (a : List Char) {b b' : List Char} (h : leading b = leading b') :
    leading (a ++ b) = leading (a ++ b') := by
  induction a with
  | nil => exact h
  | cons c a ih =>
    cases hc : isBlank c with
    | true => rw [List.cons_append, List.cons_append, leading_blank hc, leading_blank hc]
    | false => rw [List.cons_append, List.cons_append, leading_visible hc, leading_visible hc, ih]

/-- What a class without white space says about the next character, the leading run tells. -/
theorem head?_any_leading {p : Char → Bool} (hp : HoldsNoBlank p) (cs : List Char) :
    (leading cs).head?.any p = cs.head?.any p := by
  cases cs with
  | nil => rfl
  | cons c cs =>
    cases hc : isBlank c with
    | true =>
      rw [leading_blank hc]
      exact (hp c hc).symm
    | false =>
      rw [leading_visible hc]
      rfl

/-! ## Patterns that read no white space -/

/-- Two spots a pattern without white space cannot tell apart. -/
structure Spot.Alike (s t : Spot) : Prop where
  read : s.read = t.read
  rest : leading s.rest = leading t.rest

theorem Spot.Alike.head?_any {s t : Spot} (h : s.Alike t) {p : Char → Bool} (hp : HoldsNoBlank p) :
    s.rest.head?.any p = t.rest.head?.any p := by
  rw [← head?_any_leading hp, h.rest, head?_any_leading hp]

/-- Spots stay alike over a character that is no white space. -/
theorem Spot.Alike.skip_one {s t : Spot} (h : s.Alike t) {p : Char → Bool} (hp : HoldsNoBlank p)
    (hs : s.rest.head?.any p = true) : (s.skip 1).Alike (t.skip 1) := by
  have ht := hs
  rw [h.head?_any hp] at ht
  obtain ⟨r, cs⟩ := s
  obtain ⟨r', ds⟩ := t
  obtain ⟨hread, hrest⟩ := h
  -- Both texts go on with a visible character, and the leading runs say it is the same.
  cases cs with
  | nil => cases hs
  | cons c cs =>
    cases ds with
    | nil => cases ht
    | cons d ds =>
      simp only [List.head?_cons, Option.any_some] at hs ht hrest
      rw [leading_visible (hp.visible hs), leading_visible (hp.visible ht)] at hrest
      injection hrest with hhead htail
      refine ⟨?_, htail⟩
      show c :: r = d :: r'
      rw [hhead, show r = r' from hread]

/-- The pattern reads no white space. -/
inductive Pattern.Visible : Pattern → Prop
  | nothing : Visible .nothing
  | one {p : Char → Bool} : HoldsNoBlank p → Visible (.one p)
  | boundary : Visible .boundary
  | seq {a b : Pattern} : Visible a → Visible b → Visible (.seq a b)
  | alt {a b : Pattern} : Visible a → Visible b → Visible (.alt a b)
  | run {p : Char → Bool} : HoldsNoBlank p → Visible (.many (.one p))

namespace Pattern

theorem one_stops_alike {p : Char → Bool} (hp : HoldsNoBlank p) {s t : Spot} (h : s.Alike t) :
    List.Forall₂ Spot.Alike ((one p).stops s) ((one p).stops t) := by
  rw [stops_one, stops_one, ← h.head?_any hp]
  by_cases hs : s.rest.head?.any p = true
  · rw [if_pos hs, if_pos hs]
    exact .cons (h.skip_one hp hs) .nil
  · rw [if_neg hs, if_neg hs]
    exact .nil

theorem repeated_alike {step : Spot → List Spot}
    (hstep : ∀ s t : Spot, s.Alike t → List.Forall₂ Spot.Alike (step s) (step t)) (n : Nat)
    {s t : Spot} (h : s.Alike t) :
    List.Forall₂ Spot.Alike (repeated step n s) (repeated step n t) := by
  induction n generalizing s t with
  | zero => exact .cons h .nil
  | succ n ih =>
    have hmore := List.rel_flatMap (hstep s t h) fun _ _ hst => ih hst
    exact List.rel_append hmore (.cons h .nil)

/-- From spots alike, a pattern without white space stops at spots alike. -/
theorem Visible.stops_alike {p : Pattern} (hp : p.Visible) {s t : Spot} (h : s.Alike t) :
    List.Forall₂ Spot.Alike (p.stops s) (p.stops t) := by
  induction hp generalizing s t with
  | nothing => exact .cons h .nil
  | one hclass => exact one_stops_alike hclass h
  | boundary =>
    have hbound : s.atBoundary = t.atBoundary := by
      rw [Spot.atBoundary, Spot.atBoundary, h.read, h.head?_any holdsNoBlank_isWord]
    rw [stops_boundary, stops_boundary, ← hbound]
    split
    · exact .cons h .nil
    · exact .nil
  | seq _ _ iha ihb => exact List.rel_flatMap (iha h) fun _ _ hst => ihb hst
  | alt _ _ iha ihb => exact List.rel_append (iha h) (ihb h)
  | @run p hclass =>
    -- The two texts bound the repetitions differently, and their sum bounds both.
    have hbound : ∀ u : Spot, u.rest.length ≤ s.rest.length + t.rest.length →
        (many (.one p)).stops u =
          repeated (Pattern.one p).stops (s.rest.length + t.rest.length) u :=
      fun u hu => repeated_bound (one_advances p) _ _ u (Nat.le_refl _) hu
    rw [hbound s (by omega), hbound t (by omega)]
    exact repeated_alike (fun _ _ hst => one_stops_alike hclass hst) _ h

/-- What a pattern without white space matches depends on the leading run of the text. -/
theorem Visible.matched?_congr {p : Pattern} (hp : p.Visible) {cs ds : List Char}
    (h : leading cs = leading ds) : p.matched? cs = p.matched? ds := by
  have hstops := hp.stops_alike (s := .front cs) (t := .front ds) ⟨rfl, h⟩
  rw [matched?, matched?]
  generalize p.stops (.front cs) = ss, p.stops (.front ds) = ts at hstops ⊢
  cases hstops with
  | nil => rfl
  | cons hfirst _ => exact congrArg some (congrArg List.reverse hfirst.read)

theorem visible_chain {ps : List (Char → Bool)} (h : ∀ p ∈ ps, HoldsNoBlank p) :
    (chain ps).Visible := by
  induction ps with
  | nil => exact .nothing
  | cons p ps ih =>
    rw [List.forall_mem_cons] at h
    exact .seq (.one h.1) (ih h.2)

theorem visible_anyOf {ps : List Pattern} (h : ∀ p ∈ ps, p.Visible) : (anyOf ps).Visible := by
  induction ps with
  | nil => exact .one fun _ _ => rfl
  | cons p ps ih =>
    rw [List.forall_mem_cons] at h
    exact .alt h.1 (ih h.2)

end Pattern

end QueryLint.Text

namespace QueryLint.Token

open QueryLint.Text

/-! ## The lexical classes -/

theorem visible_wordPattern {dictionary : List (List Char)} (hd : Spelled dictionary) :
    (wordPattern dictionary).Visible := by
  refine .seq .boundary (.seq (Pattern.visible_anyOf ?_) .boundary)
  intro p hp
  obtain ⟨word, hword, rfl⟩ := List.mem_map.1 hp
  apply Pattern.visible_chain
  intro q hq
  obtain ⟨w, hw, rfl⟩ := List.mem_map.1 hq
  intro c hc
  -- What spells a letter is a word character, and white space is none.
  rw [Bool.eq_false_iff]
  intro hspells
  have hisWord := isWord_of_spellsLetter ((hd word hword).2 w hw) hspells
  rw [holdsNoBlank_isWord c hc] at hisWord
  cases hisWord

theorem visible_operator : LexClass.operator.pattern.Visible := by
  have hall : (operators.all fun op => op.all fun c => !isBlank c) = true := by decide
  apply Pattern.visible_anyOf
  intro p hp
  obtain ⟨op, hop, rfl⟩ := List.mem_map.1 hp
  apply Pattern.visible_chain
  intro q hq
  obtain ⟨x, hx, rfl⟩ := List.mem_map.1 hq
  intro c hc
  have hvisible := List.all_eq_true.1 (List.all_eq_true.1 hall op hop) x hx
  rw [Bool.not_eq_true'] at hvisible
  exact beq_eq_false_iff_ne.2 (blank_ne hc hvisible).symm

/-- String literals and white space apart, the lexical classes read no white space. -/
theorem LexClass.visible_pattern {k : LexClass} (hstring : k ≠ .string) (hblank : k ≠ .blank) :
    k.pattern.Visible := by
  have hdigit : HoldsNoBlank Char.isDigit := holdsNoBlank_of_all (by decide)
  have hdigits : digits.Visible := .seq (.one hdigit) (.run hdigit)
  cases k with
  | keyword => exact visible_wordPattern spelled_keywordLetters
  | aggregate => exact visible_wordPattern spelled_aggregateLetters
  | star => exact .one (holdsNoBlank_of_all (by decide))
  | identifier =>
    exact .seq (.one (holdsNoBlank_of_all (by decide))) (.run (holdsNoBlank_of_all (by decide)))
  | number =>
    have hpoint : HoldsNoBlank (· == '.') := holdsNoBlank_of_all (by decide)
    exact .seq .boundary
      (.seq hdigits (.seq (.alt (.seq (.one hpoint) hdigits) .nothing) .boundary))
  | string => exact absurd rfl hstring
  | operator => exact visible_operator
  | symbol => exact .one (holdsNoBlank_of_all (by decide))
  | blank => exact absurd rfl hblank

/-- At white space no class matches but the last. -/
theorem LexClass.matched?_at_blank {k : LexClass} (hk : k ≠ .blank) {c : Char}
    (hc : isBlank c = true) (cs : List Char) : k.pattern.matched? (c :: cs) = none := by
  by_cases hstring : k = .string
  · have hquote : c ≠ '\'' := blank_ne hc (by decide)
    rw [hstring, LexClass.matched?_pattern, LexClass.matchLength?, stringLength?_cons,
      if_neg hquote]
    rfl
  · have hempty : k.pattern.matched? [] = none := firstMatch?_eq_none_iff.1 firstMatch?_nil k
    have hlead : leading (c :: cs) = leading [] := leading_blank hc cs
    rw [(visible_pattern hstring hk).matched?_congr hlead, hempty]

/-! ## Lexemes that are not blank -/

theorem closingQuote?_of_pieces {body : List Char} (h : Pieces body) (rest : List Char) :
    closingQuote? (body ++ '\'' :: rest) = some (body.length + 1) := by
  induction h with
  | nil => rfl
  | plain hquote hslash _ ih =>
    rw [List.cons_append, closingQuote?_cons, if_neg hquote, if_neg hslash, ih]
    rfl
  | escaped hbreak _ ih =>
    rw [List.cons_append, List.cons_append, closingQuote?_cons, if_neg (by decide), if_pos rfl]
    simp only [hbreak, if_false, ih]
    rfl

/-- A string literal matches whatever follows its closing quote. -/
theorem matched?_string {t : List Char} (h : LexClass.string.Shape t) (rest : List Char) :
    LexClass.string.pattern.matched? (t ++ rest) = some t := by
  obtain ⟨body, rfl, hbody⟩ := h
  have hclose := closingQuote?_of_pieces hbody rest
  rw [LexClass.matched?_pattern, LexClass.matchLength?, List.cons_append, List.append_assoc,
    List.singleton_append, stringLength?_cons, if_pos rfl, hclose]
  have htake : (body ++ '\'' :: rest).take (body.length + 1) = body ++ ['\''] := by
    rw [List.take_length_add_append]
    rfl
  simp [htake]

theorem LexClass.ne_blank_of_earlier {j k : LexClass} (h : k ∈ LexClass.all.takeWhile (· ≠ j)) :
    k ≠ .blank := by
  rintro rfl
  revert h
  cases j <;> decide

/-- Where string literals have been tried in vain, no quote stands. -/
theorem stringLength?_of_earlier {k : LexClass} (hk : k ≠ .blank)
    (h : .string ∈ LexClass.all.takeWhile (· ≠ k)) {t : List Char} (ht : k.Shape t)
    (rest : List Char) : stringLength? (t ++ rest) = none := by
  -- Only two classes come after string literals, and neither begins with a quote.
  have hlate : k = .operator ∨ k = .symbol := by
    revert h
    cases k with
    | operator => exact fun _ => .inl rfl
    | symbol => exact fun _ => .inr rfl
    | blank => exact absurd rfl hk
    | _ => decide
  rcases hlate with rfl | rfl
  · have hall : (operators.all fun op => op.head?.any (· != '\'')) = true := by decide
    have hhead := List.all_eq_true.1 hall t ht
    cases t with
    | nil => cases hhead
    | cons c t =>
      have hquote : c ≠ '\'' := by simpa using hhead
      rw [List.cons_append, stringLength?_cons, if_neg hquote]
  · obtain ⟨c, hc, rfl⟩ := ht
    have hall : (symbols.all fun c => c != '\'') = true := by decide
    have hquote : c ≠ '\'' := by simpa using List.all_eq_true.1 hall c hc
    rw [List.singleton_append, stringLength?_cons, if_neg hquote]

/-- A lexeme that is not blank stays the first match when what follows it is changed behind
    the next white space. -/
theorem Lexeme.IsFirstMatch.of_leading {l : Lexeme} {r r' : List Char} (h : l.IsFirstMatch r)
    (hl : l.lexClass ≠ .blank) (hr : leading r = leading r') : l.IsFirstMatch r' := by
  have hlead : leading (l.text ++ r') = leading (l.text ++ r) := leading_append_congr _ hr.symm
  have hshape := h.shape
  -- A literal is matched up to its quote whatever follows; the other classes look no further
  -- than the leading run, and so do those tried before.
  refine ⟨h.nonempty, ?_, ?_⟩
  · by_cases hstring : l.lexClass = .string
    · rw [hstring] at hshape ⊢
      exact matched?_string hshape r'
    · rw [(LexClass.visible_pattern hstring hl).matched?_congr hlead]
      exact h.matched
  · intro k hk
    by_cases hstring : k = .string
    · subst hstring
      rw [LexClass.matched?_pattern, LexClass.matchLength?, stringLength?_of_earlier hl hk hshape]
      rfl
    · have hblank := LexClass.ne_blank_of_earlier hk
      rw [(LexClass.visible_pattern hstring hblank).matched?_congr hlead]
      exact h.earlier k hk

/-- A lexeme that is not blank begins and ends with visible characters. -/
theorem Lexeme.IsFirstMatch.visible_ends {l : Lexeme} {r : List Char} (h : l.IsFirstMatch r)
    (hl : l.lexClass ≠ .blank) :
    (∀ c ∈ l.text.head?, isBlank c = false) ∧ ∀ c ∈ l.text.getLast?, isBlank c = false := by
  by_cases hstring : l.lexClass = .string
  · obtain ⟨body, hbody, _⟩ := hstring ▸ h.shape
    rw [hbody]
    simp only [List.head?_cons, Option.mem_some_iff]
    constructor
    · rintro c rfl
      decide
    · rw [← List.cons_append, List.getLast?_concat]
      intro c hc
      cases hc
      decide
  · -- The lexeme is also what its pattern matches in the leading run, so it lies within it.
    have hidem : leading (leading (l.text ++ r)) = leading (l.text ++ r) := by
      rw [leading, leading, List.takeWhile_takeWhile]
      simp
    have hmatched := h.matched
    rw [← (LexClass.visible_pattern hstring hl).matched?_congr hidem, LexClass.matched?_pattern]
      at hmatched
    obtain ⟨n, _, htake⟩ := Option.map_eq_some_iff.1 hmatched
    have hall : ∀ c ∈ l.text, isBlank c = false := by
      intro c hc
      rw [← htake] at hc
      simpa using List.mem_takeWhile_imp (List.mem_of_mem_take hc)
    exact ⟨fun c hc => hall c (List.mem_of_mem_head? hc),
      fun c hc => hall c (List.mem_of_mem_getLast? hc)⟩

/-! ## Blank lexemes -/

/-- The text is empty or begins with a visible character. -/
def StartsVisible (cs : List Char) : Prop :=
  ∀ c ∈ cs.head?, isBlank c = false

theorem spanLength_of_startsVisible {g r : List Char} (hg : ∀ c ∈ g, isBlank c = true) :
    spanLength isBlank (g ++ r) = g.length ↔ StartsVisible r := by
  rw [spanLength, List.takeWhile_append_of_pos hg, List.length_append]
  cases r with
  | nil => simp [StartsVisible]
  | cons c r => cases hc : isBlank c <;> simp [StartsVisible, hc]

/-- A blank lexeme is a run of white space that goes as far as it can. -/
theorem Lexeme.isFirstMatch_blank_iff {g r : List Char} :
    (Lexeme.mk .blank g).IsFirstMatch r ↔
      g ≠ [] ∧ (∀ c ∈ g, isBlank c = true) ∧ StartsVisible r := by
  constructor
  · intro h
    obtain ⟨hne, hblank⟩ := h.shape
    have hlength := (firstMatch?_eq_some_iff.1 (Lexeme.isFirstMatch_iff.1 h)).1
    simp only [LexClass.matchLength?, blankLength?] at hlength
    split at hlength
    · cases hlength
    · exact ⟨hne, hblank, (spanLength_of_startsVisible hblank).1 (Option.some.inj hlength)⟩
  · rintro ⟨hne, hblank, hr⟩
    have hlength := (spanLength_of_startsVisible hblank).2 hr
    refine ⟨hne, ?_, ?_⟩
    · have hpos : g.length ≠ 0 := by simpa using hne
      simp [LexClass.matched?_pattern, LexClass.matchLength?, blankLength?, hlength, hpos]
    · intro k hk
      cases g with
      | nil => exact absurd rfl hne
      | cons c g =>
        have hc := hblank c List.mem_cons_self
        exact LexClass.matched?_at_blank (LexClass.ne_blank_of_earlier hk) hc (g ++ r)

/-- A lexeme that begins with white space is blank. -/
theorem Lexeme.IsFirstMatch.blank_of_head {l : Lexeme} {r : List Char} (h : l.IsFirstMatch r)
    {c : Char} (hhead : l.text.head? = some c) (hc : isBlank c = true) : l.lexClass = .blank := by
  by_contra hl
  have hvisible := (h.visible_ends hl).1 c hhead
  rw [hc] at hvisible
  cases hvisible

/-- A lexeme that ends with white space is blank. -/
theorem Lexeme.IsFirstMatch.blank_of_getLast {l : Lexeme} {r : List Char} (h : l.IsFirstMatch r)
    {c : Char} (hlast : l.text.getLast? = some c) (hc : isBlank c = true) :
    l.lexClass = .blank := by
  by_contra hl
  have hvisible := (h.visible_ends hl).2 c hlast
  rw [hc] at hvisible
  cases hvisible

end QueryLint.Token

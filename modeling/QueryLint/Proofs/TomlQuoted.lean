/-
  QueryLint.Proofs.TomlQuoted

  A text in quotes is read back, whichever of the four ways of quoting it is written in
  (`quoted_writeQuoted`).

  Within a basic string a character stands for itself or is spelled by an escape (`Spelling`),
  and both readers of basic strings take a spelling for its character. Over several lines, up to
  two quotes in a row stand as they are, and the text may end with them right before its closing
  quotes. So the readers are followed with the quotes just before still unread: a run of quotes
  is known to belong to the text only once its end is seen.
-/
import QueryLint.Toml.Quoted

namespace QueryLint.Toml

open QueryLint.Text

/-! ## Spellings -/

/-- How a character may be spelled in a basic string, but for bare quotes and line breaks. -/
inductive Spelling (x : Char) : List Char → Prop
  | letter {e : Char} : e ≠ 'u' → e ≠ 'U' → simpleEscape? e = some x → Spelling x ['\\', e]
  | unit {a b c d : Char} : codePoint? [a, b, c, d] = some x → Spelling x ['\\', 'u', a, b, c, d]
  | plain : isPrintable x = true → x ≠ '"' → x ≠ '\\' → Spelling x [x]

theorem basicBody_letter {e : Char} (hu : e ≠ 'u') (hU : e ≠ 'U') (cs : List Char) :
    basicBody ('\\' :: e :: cs) =
      (simpleEscape? e).bind fun x => (basicBody cs).map (consTo x) := by
  rw [basicBody]
  · cases simpleEscape? e <;> cases basicBody cs <;> rfl
  · exact fun _ _ _ _ _ h => absurd h hu
  · exact fun _ _ _ _ _ _ _ _ _ h => absurd h hU

theorem basicBody_unit (a b c d : Char) (cs : List Char) :
    basicBody ('\\' :: 'u' :: a :: b :: c :: d :: cs) =
      (codePoint? [a, b, c, d]).bind fun x => (basicBody cs).map (consTo x) := by
  rw [basicBody]
  cases codePoint? [a, b, c, d] <;> cases basicBody cs <;> rfl

theorem basicBody_plain {x : Char} (hquote : x ≠ '"') (hslash : x ≠ '\\')
    (hx : isPrintable x = true) (cs : List Char) :
    basicBody (x :: cs) = (basicBody cs).map (consTo x) := by
  rw [basicBody, if_pos (by simp [hx, hslash])]
  · exact hquote
  · exact fun _ _ _ _ _ h => absurd h hslash
  · exact fun _ _ _ _ _ _ _ _ _ h => absurd h hslash
  · exact fun _ _ h => absurd h hslash

/-- Within a line, a spelling is read as its character. -/
theorem Spelling.basicBody {x : Char} {e : List Char} (h : Spelling x e) (cs : List Char) :
    basicBody (e ++ cs) = (basicBody cs).map (consTo x) := by
  cases h with
  | letter hu hU hx =>
    rw [List.cons_append, List.cons_append, List.nil_append, basicBody_letter hu hU, hx,
      Option.bind_some]
  | unit hx =>
    simp only [List.cons_append, List.nil_append]
    rw [basicBody_unit, hx, Option.bind_some]
  | plain hx hquote hslash => exact basicBody_plain hquote hslash hx cs

theorem basicLinesBody_letter {e x : Char} (hu : e ≠ 'u') (hU : e ≠ 'U')
    (hx : simpleEscape? e = some x) (cs : List Char) :
    basicLinesBody false ('\\' :: e :: cs) = (basicLinesBody false cs).map (consTo x) := by
  rw [basicLinesBody]
  · simp only [hx]
  · exact fun _ _ _ _ _ h => absurd h hu
  · exact fun _ _ _ _ _ _ _ _ _ h => absurd h hU

theorem basicLinesBody_unit (a b c d : Char) (cs : List Char) :
    basicLinesBody false ('\\' :: 'u' :: a :: b :: c :: d :: cs) =
      (codePoint? [a, b, c, d]).bind fun x => (basicLinesBody false cs).map (consTo x) := by
  rw [basicLinesBody]
  cases codePoint? [a, b, c, d] <;> cases basicLinesBody false cs <;> rfl

/-- A character stands for itself unless it closes the text, begins an escape or is part of a
    line break. -/
theorem basicLinesBody_plain {x : Char} {cs : List Char}
    (hquote : ∀ rest, x = '"' → cs ≠ '"' :: '"' :: rest) (hslash : x ≠ '\\') (hreturn : x ≠ '\r')
    (hx : x = '\n' ∨ isPrintable x = true) :
    basicLinesBody false (x :: cs) = (basicLinesBody false cs).map (consTo x) := by
  rw [basicLinesBody]
  · rw [Bool.false_and, if_neg (by simp), if_pos]
    rcases hx with rfl | hx
    · rfl
    · simp [hx, hslash]
  · exact fun rest h => hquote rest h
  · exact fun _ _ _ _ _ h => absurd h hslash
  · exact fun _ _ _ _ _ _ _ _ _ h => absurd h hslash
  · exact fun _ _ h => absurd h hslash
  · exact fun _ h => absurd h hreturn

theorem ne_return_of_isPrintable {x : Char} (h : isPrintable x = true) : x ≠ '\r' := by
  rintro rfl
  exact absurd h (by decide)

/-- Over several lines, a spelling is read as its character. -/
theorem Spelling.basicLinesBody {x : Char} {e : List Char} (h : Spelling x e) (cs : List Char) :
    basicLinesBody false (e ++ cs) = (basicLinesBody false cs).map (consTo x) := by
  cases h with
  | letter hu hU hx => exact basicLinesBody_letter hu hU hx cs
  | unit hx =>
    simp only [List.cons_append, List.nil_append]
    rw [basicLinesBody_unit, hx, Option.bind_some]
  | plain hx hquote hslash =>
    exact basicLinesBody_plain (fun _ e => absurd e hquote) hslash (ne_return_of_isPrintable hx)
      (.inr hx)

/-- A spelling begins with neither a quote nor a line break. -/
theorem Spelling.begins {x : Char} {e : List Char} (h : Spelling x e) :
    ∃ c cs, e = c :: cs ∧ c ≠ '"' ∧ c ≠ '\n' ∧ c ≠ '\r' := by
  cases h with
  | letter => exact ⟨_, _, rfl, by decide, by decide, by decide⟩
  | unit => exact ⟨_, _, rfl, by decide, by decide, by decide⟩
  | plain hx hquote _ =>
    refine ⟨_, _, rfl, hquote, ?_, ne_return_of_isPrintable hx⟩
    rintro rfl
    exact absurd hx (by decide)

/-! ## Written characters -/

theorem codePoint?_hexDigits {x : Char} (h : x.toNat < 0x80) :
    codePoint? ['0', '0', upperHexDigit (x.toNat / 16), upperHexDigit (x.toNat % 16)] = some x := by
  have hhex : ∀ n < 0x80,
      ofHex? ['0', '0', upperHexDigit (n / 16), upperHexDigit (n % 16)] = some n := by decide
  have hvalid : x.toNat.isValidChar := x.valid
  rw [codePoint?, hhex _ h, Option.bind_some, scalar?, if_pos hvalid, Char.ofNat_toNat]

theorem spelling_escapeControl {x : Char} (h : x.toNat < 0x80) : Spelling x (escapeControl x) := by
  by_cases hletter : x ∈ ['\x08', '\t', '\n', '\x0c', '\r']
  · simp only [List.mem_cons, List.not_mem_nil, or_false] at hletter
    rcases hletter with rfl | rfl | rfl | rfl | rfl <;> exact .letter (by decide) (by decide) rfl
  · simp only [List.mem_cons, List.not_mem_nil, or_false, not_or] at hletter
    have hunit : escapeControl x =
        ['\\', 'u', '0', '0', upperHexDigit (x.toNat / 16), upperHexDigit (x.toNat % 16)] := by
      simp [escapeControl, hletter]
    rw [hunit]
    exact .unit (codePoint?_hexDigits h)

/-- How one character is written: over several lines a bare quote or line break, and else a
    spelling, behind which the count of quotes starts anew. -/
theorem writeBasic_cons (overLines : Bool) (run : Nat) (x : Char) (cs : List Char) :
    (x = '"' ∧ overLines = true ∧ run < 2 ∧
      writeBasic overLines run (x :: cs) = '"' :: writeBasic overLines (run + 1) cs) ∨
    (x = '\n' ∧ overLines = true ∧
      writeBasic overLines run (x :: cs) = '\n' :: writeBasic overLines 0 cs) ∨
    ∃ e, Spelling x e ∧ writeBasic overLines run (x :: cs) = e ++ writeBasic overLines 0 cs := by
  by_cases hquote : x = '"'
  · subst hquote
    by_cases hbare : overLines = true ∧ run < 2
    · exact .inl ⟨rfl, hbare.1, hbare.2, by simp [writeBasic, hbare]⟩
    · refine .inr (.inr ⟨['\\', '"'], .letter (by decide) (by decide) rfl, ?_⟩)
      simp only [writeBasic, Bool.and_eq_true, decide_eq_true_eq, if_true, if_neg hbare]
      rfl
  by_cases hslash : x = '\\'
  · subst hslash
    exact .inr (.inr ⟨['\\', '\\'], .letter (by decide) (by decide) rfl, by simp [writeBasic]⟩)
  by_cases hbreak : x = '\n' ∧ overLines = true
  · obtain ⟨rfl, rfl⟩ := hbreak
    exact .inr (.inl ⟨rfl, rfl, by simp [writeBasic]⟩)
  have hwritten : writeBasic overLines run (x :: cs) =
      if x.toNat ≤ 0x1F ∨ x.toNat = 0x7F then escapeControl x ++ writeBasic overLines 0 cs
      else x :: writeBasic overLines 0 cs := by
    rw [writeBasic, if_neg hquote, if_neg hslash, if_neg (by simpa using hbreak)]
    simp
  rw [hwritten]
  by_cases hcontrol : x.toNat ≤ 0x1F ∨ x.toNat = 0x7F
  · exact .inr (.inr ⟨_, spelling_escapeControl (by omega), if_pos hcontrol⟩)
  · refine .inr (.inr ⟨[x], .plain ?_ hquote hslash, if_neg hcontrol⟩)
    simp only [isPrintable, Bool.or_eq_true, Bool.and_eq_true, decide_eq_true_eq, bne_iff_ne]
    omega

/-! ## Within a line -/

theorem basicBody_writeBasic (run : Nat) (cs rest : List Char) :
    basicBody (writeBasic false run cs ++ '"' :: rest) = some (cs, rest) := by
  induction cs generalizing run with
  | nil => rfl
  | cons x cs ih =>
    rcases writeBasic_cons false run x cs with ⟨_, h, _⟩ | ⟨_, h, _⟩ | ⟨e, hspelling, hwritten⟩
    · cases h
    · cases h
    · rw [hwritten, List.append_assoc, hspelling.basicBody, ih]
      rfl

theorem literalBody_append {cs : List Char} (h : ∀ c ∈ cs, isPrintable c = true ∧ c ≠ '\'')
    (rest : List Char) : literalBody (cs ++ '\'' :: rest) = some (cs, rest) := by
  induction cs with
  | nil => rfl
  | cons x cs ih =>
    obtain ⟨hx, hcs⟩ := List.forall_mem_cons.1 h
    rw [List.cons_append, literalBody, if_pos hx.1, ih hcs]
    · rfl
    · exact hx.2

/-! ## Over several lines -/

/-- The text does not begin with this character. -/
def NotLed (c : Char) (cs : List Char) : Prop :=
  cs.head? ≠ some c

theorem notLed_cons {c x : Char} {cs : List Char} : NotLed c (x :: cs) ↔ x ≠ c := by
  simp [NotLed]

theorem NotLed.ne_cons {c : Char} {cs : List Char} (h : NotLed c cs) (rest : List Char) :
    cs ≠ c :: rest := by
  rintro rfl
  exact h rfl

/-- A reader of what three quotes close, in which fewer quotes belong to the text. -/
structure TripleQuoted (quote : Char) (body : Reader (List Char)) : Prop where
  closed : ∀ cs, body (quote :: quote :: quote :: cs) = some (lastQuotes quote cs)
  bare : ∀ cs, (∀ rest, cs ≠ quote :: quote :: rest) →
    body (quote :: cs) = (body cs).map (consTo quote)

theorem tripleQuoted_basicLinesBody : TripleQuoted '"' (basicLinesBody false) where
  closed _ := by rw [basicLinesBody]
  bare _ h := basicLinesBody_plain (fun rest _ => h rest) (by decide) (by decide) (.inr (by decide))

theorem tripleQuoted_literalLinesBody : TripleQuoted '\'' literalLinesBody where
  closed _ := by rw [literalLinesBody]
  bare cs h := by
    rw [literalLinesBody, if_pos (by decide)]
    · exact fun rest _ => h rest
    · exact fun _ h => absurd h (by decide)

/-- A run of two quotes at most is complete when another character follows it. -/
theorem TripleQuoted.run {quote : Char} {body : Reader (List Char)} (h : TripleQuoted quote body)
    {r : Nat} (hr : r ≤ 2) {cs text rest : List Char} (hcs : NotLed quote cs)
    (hread : body cs = some (text, rest)) :
    body (List.replicate r quote ++ cs) = some (List.replicate r quote ++ text, rest) := by
  have hone : body (quote :: cs) = some (quote :: text, rest) := by
    rw [h.bare cs fun rest => hcs.ne_cons _, hread]
    rfl
  match r, hr with
  | 0, _ => exact hread
  | 1, _ => exact hone
  | 2, _ =>
    change body (quote :: quote :: cs) = _
    rw [h.bare _ fun rest heq => hcs.ne_cons rest (List.cons.inj heq).2, hone]
    rfl

theorem lastQuotes_replicate {quote : Char} {r : Nat} (hr : r ≤ 2) {rest : List Char}
    (hrest : NotLed quote rest) :
    lastQuotes quote (List.replicate r quote ++ rest) = (List.replicate r quote, rest) := by
  match r, hr, rest with
  | 0, _, [] => rfl
  | 0, _, [x] => simp [lastQuotes, notLed_cons.1 hrest]
  | 0, _, x :: y :: rest => simp [lastQuotes, notLed_cons.1 hrest]
  | 1, _, [] => simp [lastQuotes]
  | 1, _, x :: rest => simp [lastQuotes, notLed_cons.1 hrest]
  | 2, _, rest => simp [lastQuotes, List.replicate]

/-- A run of two quotes at most belongs to the text when the closing ones follow it. -/
theorem TripleQuoted.close {quote : Char} {body : Reader (List Char)} (h : TripleQuoted quote body)
    {r : Nat} (hr : r ≤ 2) {rest : List Char} (hrest : NotLed quote rest) :
    body (List.replicate r quote ++ quote :: quote :: quote :: rest) =
      some (List.replicate r quote, rest) := by
  -- The first three quotes are taken as the closing ones, and those left over are given back.
  have hmoved : List.replicate r quote ++ quote :: quote :: quote :: rest =
      quote :: quote :: quote :: (List.replicate r quote ++ rest) := by
    match r, hr with
    | 0, _ => rfl
    | 1, _ => rfl
    | 2, _ => rfl
  rw [hmoved, h.closed, lastQuotes_replicate hr hrest]

theorem replicate_append_cons (r : Nat) (c : Char) (cs : List Char) :
    List.replicate r c ++ c :: cs = List.replicate (r + 1) c ++ cs := by
  rw [List.replicate_succ', List.append_assoc, List.singleton_append]

theorem basicLinesBody_writeBasic {r : Nat} (hr : r ≤ 2) (cs : List Char) {rest : List Char}
    (hrest : NotLed '"' rest) :
    basicLinesBody false
        (List.replicate r '"' ++ (writeBasic true r cs ++ '"' :: '"' :: '"' :: rest)) =
      some (List.replicate r '"' ++ cs, rest) := by
  -- The quotes before the unread text are part of the statement: they are what `run` counts.
  induction cs generalizing r with
  | nil => simpa [writeBasic] using tripleQuoted_basicLinesBody.close hr hrest
  | cons x cs ih =>
    have hnext := ih (Nat.zero_le 2)
    simp only [List.replicate_zero, List.nil_append] at hnext
    rcases writeBasic_cons true r x cs with
      ⟨rfl, _, hlt, hwritten⟩ | ⟨rfl, _, hwritten⟩ | ⟨e, hspelling, hwritten⟩
    · rw [hwritten, List.cons_append, replicate_append_cons, replicate_append_cons]
      exact ih hlt
    · rw [hwritten, List.cons_append]
      refine tripleQuoted_basicLinesBody.run hr (notLed_cons.2 (by decide)) ?_
      rw [basicLinesBody_plain (fun _ h => absurd h (by decide)) (by decide) (by decide) (.inl rfl),
        hnext]
      rfl
    · rw [hwritten, List.append_assoc]
      refine tripleQuoted_basicLinesBody.run hr ?_ ?_
      · obtain ⟨c, es, rfl, hquote, _⟩ := hspelling.begins
        exact notLed_cons.2 hquote
      · rw [hspelling.basicLinesBody, hnext]
        rfl

/-! ## Runs of quotes -/

theorem le_longestRunFrom (c : Char) (run longest : Nat) (cs : List Char) :
    longest ≤ longestRunFrom c run longest cs := by
  induction cs generalizing run longest with
  | nil => exact Nat.le_refl _
  | cons x xs ih =>
    rw [longestRunFrom]
    split
    · exact Nat.le_trans (Nat.le_max_left _ _) (ih _ _)
    · exact ih _ _

theorem longestRunFrom_pos {c : Char} {cs : List Char} (h : c ∈ cs) (run longest : Nat) :
    0 < longestRunFrom c run longest cs := by
  induction cs generalizing run longest with
  | nil => cases h
  | cons x xs ih =>
    rw [longestRunFrom]
    split
    · exact Nat.lt_of_lt_of_le (by omega) (le_longestRunFrom c (run + 1) (max longest (run + 1)) xs)
    · next hne => exact ih ((List.mem_cons.1 h).resolve_left fun e => hne e.symm) _ _

theorem isControl_eq_false_iff {c : Char} :
    isControl c = false ↔ c = '\n' ∨ isPrintable c = true := by
  have hbreak : c = '\n' ↔ c.toNat = 10 := by rw [← Char.toNat_inj]; rfl
  have htab : c = '\t' ↔ c.toNat = 9 := by rw [← Char.toNat_inj]; rfl
  simp only [isControl, isPrintable, Bool.or_eq_false_iff, Bool.and_eq_false_iff, Bool.or_eq_true,
    Bool.and_eq_true, decide_eq_false_iff_not, decide_eq_true_eq, bne_eq_false_iff_eq, bne_iff_ne,
    beq_eq_false_iff_ne, beq_iff_eq, hbreak, htab]
  omega

theorem literalLinesBody_append {r longest : Nat} (hr : r ≤ 2) {cs rest : List Char}
    (hrun : longestRunFrom '\'' r longest cs ≤ 2) (hcs : ∀ c ∈ cs, isControl c = false)
    (hrest : NotLed '\'' rest) :
    literalLinesBody (List.replicate r '\'' ++ (cs ++ '\'' :: '\'' :: '\'' :: rest)) =
      some (List.replicate r '\'' ++ cs, rest) := by
  -- As for basic strings, but here only the bound on runs keeps quotes from closing the text.
  induction cs generalizing r longest with
  | nil => simpa using tripleQuoted_literalLinesBody.close hr hrest
  | cons x cs ih =>
    obtain ⟨hx, htail⟩ := List.forall_mem_cons.1 hcs
    rw [longestRunFrom] at hrun
    by_cases hquote : x = '\''
    · subst hquote
      rw [if_pos rfl] at hrun
      have hr' : r + 1 ≤ 2 := by
        have := le_longestRunFrom '\'' (r + 1) (max longest (r + 1)) cs
        omega
      rw [List.cons_append, replicate_append_cons, replicate_append_cons]
      exact ih hr' hrun htail
    · rw [if_neg hquote] at hrun
      have hnext := ih (Nat.zero_le 2) hrun htail
      simp only [List.replicate_zero, List.nil_append] at hnext
      have hx' := isControl_eq_false_iff.1 hx
      refine tripleQuoted_literalLinesBody.run hr (notLed_cons.2 hquote) ?_
      rw [List.cons_append, literalLinesBody, if_pos (by simpa using hx'), hnext]
      · rfl
      · exact fun _ h => absurd h hquote
      · rintro _ rfl
        exact absurd hx (by decide)

/-! ## Quoted texts -/

theorem dropLineBreak_of_notLed {cs : List Char} (hbreak : NotLed '\n' cs)
    (hreturn : NotLed '\r' cs) : dropLineBreak cs = cs := by
  unfold dropLineBreak
  split
  · exact absurd rfl hbreak
  · exact absurd rfl hreturn
  · rfl

/-- The line break behind the opening quotes is no part of the text. -/
theorem dropLineBreak_leadingBreak {cs body : List Char}
    (h : '\n' ∉ cs → NotLed '\n' body ∧ NotLed '\r' body) :
    dropLineBreak (leadingBreak cs ++ body) = body := by
  unfold leadingBreak
  split
  · rfl
  · next hnone =>
    obtain ⟨hbreak, hreturn⟩ := h (by simpa using hnone)
    exact dropLineBreak_of_notLed hbreak hreturn

theorem of_quotingOf_eq_literal {cs : List Char} (h : quotingOf cs = .literal) :
    ∀ c ∈ cs, isPrintable c = true ∧ c ≠ '\'' := by
  have hnone : cs.any isControl = false ∧ longestRun '\'' cs = 0 ∧ cs.contains '\n' = false := by
    grind [quotingOf]
  obtain ⟨hcontrol, hsingles, hbreak⟩ := hnone
  intro c hc
  refine ⟨?_, ?_⟩
  · have hplain : isControl c = false := by simpa using List.any_eq_false.1 hcontrol c hc
    refine (isControl_eq_false_iff.1 hplain).resolve_left ?_
    rintro rfl
    simp [hc] at hbreak
  · rintro rfl
    exact absurd hsingles (Nat.pos_iff_ne_zero.1 (longestRunFrom_pos hc 0 0))

theorem of_quotingOf_eq_literalLines {cs : List Char} (h : quotingOf cs = .literalLines) :
    (∀ c ∈ cs, isControl c = false) ∧ longestRun '\'' cs ≤ 2 := by
  have hnone : cs.any isControl = false ∧ longestRun '\'' cs ≤ 2 := by
    grind [quotingOf]
  exact ⟨fun c hc => by simpa using List.any_eq_false.1 hnone.1 c hc, hnone.2⟩

/-! One lemma for each way of quoting: the opening quotes are not taken for others, and what
follows them reads as the text. -/

theorem quoted_basic (cs : List Char) {rest : List Char} (hrest : NotLed '"' rest) :
    quoted ('"' :: (writeBasic false 0 cs ++ '"' :: rest)) = some (cs, rest) := by
  -- The quotes around the empty text would open one over several lines if another followed.
  have hopen : ∀ t, writeBasic false 0 cs ++ '"' :: rest ≠ '"' :: '"' :: t := by
    intro t heq
    cases cs with
    | nil => exact hrest.ne_cons t (List.cons.inj heq).2
    | cons x cs =>
      rcases writeBasic_cons false 0 x cs with ⟨_, h, _⟩ | ⟨_, h, _⟩ | ⟨e, hspelling, hwritten⟩
      · cases h
      · cases h
      · obtain ⟨c, es, rfl, hquote, _⟩ := hspelling.begins
        rw [hwritten] at heq
        exact hquote (List.cons.inj heq).1
  rw [quoted]
  · exact basicBody_writeBasic 0 cs rest
  · exact hopen

theorem quoted_literal {cs rest : List Char} (hcs : ∀ c ∈ cs, isPrintable c = true ∧ c ≠ '\'')
    (hrest : NotLed '\'' rest) : quoted ('\'' :: (cs ++ '\'' :: rest)) = some (cs, rest) := by
  have hopen : ∀ t, cs ++ '\'' :: rest ≠ '\'' :: '\'' :: t := by
    intro t heq
    cases cs with
    | nil => exact hrest.ne_cons t (List.cons.inj heq).2
    | cons x cs => exact (hcs x List.mem_cons_self).2 (List.cons.inj heq).1
  rw [quoted]
  · exact literalBody_append hcs rest
  · exact hopen

theorem quoted_basicLines (cs : List Char) {rest : List Char} (hrest : NotLed '"' rest) :
    quoted ('"' :: '"' :: '"' ::
        (leadingBreak cs ++ (writeBasic true 0 cs ++ '"' :: '"' :: '"' :: rest))) =
      some (cs, rest) := by
  have hled : '\n' ∉ cs → NotLed '\n' (writeBasic true 0 cs ++ '"' :: '"' :: '"' :: rest) ∧
      NotLed '\r' (writeBasic true 0 cs ++ '"' :: '"' :: '"' :: rest) := by
    intro hbreak
    cases cs with
    | nil => exact ⟨notLed_cons.2 (by decide), notLed_cons.2 (by decide)⟩
    | cons x cs =>
      rcases writeBasic_cons true 0 x cs with
        ⟨rfl, _, _, hwritten⟩ | ⟨rfl, _, hwritten⟩ | ⟨e, hspelling, hwritten⟩
      · rw [hwritten]
        exact ⟨notLed_cons.2 (by decide), notLed_cons.2 (by decide)⟩
      · exact absurd List.mem_cons_self hbreak
      · obtain ⟨c, es, rfl, _, hnewline, hreturn⟩ := hspelling.begins
        rw [hwritten]
        exact ⟨notLed_cons.2 hnewline, notLed_cons.2 hreturn⟩
  rw [quoted, dropLineBreak_leadingBreak hled]
  exact basicLinesBody_writeBasic (Nat.zero_le 2) cs hrest

theorem quoted_literalLines {cs rest : List Char} (hcs : ∀ c ∈ cs, isControl c = false)
    (hrun : longestRun '\'' cs ≤ 2) (hrest : NotLed '\'' rest) :
    quoted ('\'' :: '\'' :: '\'' :: (leadingBreak cs ++ (cs ++ '\'' :: '\'' :: '\'' :: rest))) =
      some (cs, rest) := by
  have hled : '\n' ∉ cs → NotLed '\n' (cs ++ '\'' :: '\'' :: '\'' :: rest) ∧
      NotLed '\r' (cs ++ '\'' :: '\'' :: '\'' :: rest) := by
    intro hbreak
    cases cs with
    | nil => exact ⟨notLed_cons.2 (by decide), notLed_cons.2 (by decide)⟩
    | cons x cs =>
      refine ⟨notLed_cons.2 ?_, notLed_cons.2 ?_⟩
      · rintro rfl
        exact hbreak List.mem_cons_self
      · rintro rfl
        exact absurd (hcs _ List.mem_cons_self) (by decide)
  rw [quoted, dropLineBreak_leadingBreak hled]
  exact literalLinesBody_append (Nat.zero_le 2) hrun hcs hrest

/-- A text in quotes is read back, and nothing behind it is taken: what follows must not begin
    with another quote. -/
theorem quoted_writeQuoted (cs : List Char) {rest : List Char} (hdouble : NotLed '"' rest)
    (hsingle : NotLed '\'' rest) : quoted (writeQuoted cs ++ rest) = some (cs, rest) := by
  cases hway : quotingOf cs with
  | basic => simpa [writeQuoted, hway] using quoted_basic cs hdouble
  | literal =>
    have hcs := of_quotingOf_eq_literal hway
    simpa [writeQuoted, hway] using quoted_literal hcs hsingle
  | basicLines => simpa [writeQuoted, hway] using quoted_basicLines cs hdouble
  | literalLines =>
    obtain ⟨hcs, hrun⟩ := of_quotingOf_eq_literalLines hway
    simpa [writeQuoted, hway] using quoted_literalLines hcs hrun hsingle

end QueryLint.Toml

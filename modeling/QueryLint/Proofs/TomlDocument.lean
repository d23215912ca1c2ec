/-
  QueryLint.Proofs.TomlDocument

  The written values, entries and headers of a document are read back.

  A document is read line by line, and a line is finished before the next one is looked at. So a
  text stands for certain lines whatever follows it (`Says`), and documents are put together by
  writing one text behind another (`Says.append`).
-/
import QueryLint.Proofs.TomlQuoted
import QueryLint.Toml.Parser
import QueryLint.Toml.Printer

namespace QueryLint.Toml

open QueryLint.Text

/-! ## Layout -/

theorem skipLayout_newline (cs : List Char) :
    skipLayout false ('\n' :: cs) = skipLayout false cs := by
  rw [skipLayout]

theorem skipLayout_space (cs : List Char) :
    skipLayout false (' ' :: cs) = skipLayout false cs := by
  rw [skipLayout]
  · rfl
  · exact fun h => absurd h (by decide)
  · exact fun _ h => absurd h (by decide)

/-- Whether a character is neither a blank nor part of a line break nor begins a comment. -/
def isContent (c : Char) : Bool :=
  !isSpace c && c != '\n' && c != '\r' && c != '#'

theorem skipLayout_content {c : Char} (h : isContent c = true) (cs : List Char) :
    skipLayout false (c :: cs) = some (c :: cs) := by
  simp only [isContent, Bool.and_eq_true, Bool.not_eq_true', bne_iff_ne] at h
  obtain ⟨⟨⟨hspace, hnewline⟩, hreturn⟩, hcomment⟩ := h
  rw [skipLayout]
  · simp [hspace, hreturn, hcomment]
  · exact hnewline
  · exact fun _ h => absurd h hreturn

theorem skipSpaces_content {c : Char} (h : isContent c = true) (cs : List Char) :
    skipSpaces (c :: cs) = c :: cs := by
  simp only [isContent, Bool.and_eq_true, Bool.not_eq_true'] at h
  rw [skipSpaces, List.dropWhile_cons_of_neg (by simp [h.1.1.1])]

/-! ## Values -/

/-- A text that reads as a value, unless more quotes follow. -/
structure WrittenValue (written : List Char) (v : Value) : Prop where
  content : ∃ c cs, written = c :: cs ∧ isContent c = true
  value_append : ∀ rest : List Char, NotLed '"' rest → NotLed '\'' rest →
    value nestingLimit (written ++ rest) = some (v, rest)

theorem writeQuoted_begins (cs : List Char) :
    ∃ quote t, writeQuoted cs = quote :: t ∧ (quote = '"' ∨ quote = '\'') := by
  unfold writeQuoted
  split
  · exact ⟨_, _, rfl, .inl rfl⟩
  · exact ⟨_, _, rfl, .inr rfl⟩
  · exact ⟨_, _, rfl, .inl rfl⟩
  · exact ⟨_, _, rfl, .inr rfl⟩

theorem writeQuoted_content (cs : List Char) :
    ∃ c t, writeQuoted cs = c :: t ∧ isContent c = true ∧ c ≠ ']' := by
  obtain ⟨quote, t, heq, rfl | rfl⟩ := writeQuoted_begins cs
  · exact ⟨_, _, heq, by decide, by decide⟩
  · exact ⟨_, _, heq, by decide, by decide⟩

/-- What begins with a quote is a text, at any depth. -/
theorem value_writeQuoted (room : Nat) (text : String) (rest : List Char)
    (hdouble : NotLed '"' rest) (hsingle : NotLed '\'' rest) :
    value (room + 1) (writeQuoted text.toList ++ rest) = some (.string text, rest) := by
  have hread := quoted_writeQuoted text.toList hdouble hsingle
  obtain ⟨quote, t, heq, hquote⟩ := writeQuoted_begins text.toList
  rw [heq, List.cons_append] at hread ⊢
  rcases hquote with rfl | rfl
  · rw [value, hread, Option.map_some, String.ofList_toList]
  · rw [value, hread, Option.map_some, String.ofList_toList]

theorem writtenValue_text (text : String) :
    WrittenValue (writeQuoted text.toList) (.string text) where
  content :=
    have ⟨c, cs, heq, hcontent, _⟩ := writeQuoted_content text.toList
    ⟨c, cs, heq, hcontent⟩
  value_append := value_writeQuoted 79 text

theorem writtenValue_boolean (b : Bool) : WrittenValue (writeBoolean b) (.boolean b) where
  content := by cases b <;> exact ⟨_, _, rfl, by decide⟩
  value_append rest _ _ := by
    cases b with
    | true =>
      change (stripWord? ['r', 'u', 'e'] (['r', 'u', 'e'] ++ rest)).map _ = _
      rw [stripWord?_append, Option.map_some]
    | false =>
      change (stripWord? ['a', 'l', 's', 'e'] (['a', 'l', 's', 'e'] ++ rest)).map _ = _
      rw [stripWord?_append, Option.map_some]

/-! ## Lists of texts -/

section Items

variable {item : Reader Value} {cs more rest : List Char} {c : Char} {x : Value}

/-- An array ends after an item that a bracket follows. -/
theorem arrayItems_last (hcs : skipLayout false cs = some (c :: more)) (hc : c ≠ ']')
    (hitem : item (c :: more) = some (x, ']' :: rest)) (fuel : Nat) :
    arrayItems item (fuel + 1) cs = some ([x], rest) := by
  have hclose : skipLayout false (']' :: rest) = some (']' :: rest) :=
    skipLayout_content (by decide) rest
  simp only [arrayItems, hcs, Option.bind_eq_bind, Option.bind_some]
  split
  · next heq => exact absurd (List.cons.inj heq).1 hc
  · simp [hitem, hclose]

/-- An array goes on after an item that a comma follows. -/
theorem arrayItems_comma (hcs : skipLayout false cs = some (c :: more)) (hc : c ≠ ']')
    (hitem : item (c :: more) = some (x, ',' :: rest)) (fuel : Nat) :
    arrayItems item (fuel + 1) cs = (arrayItems item fuel rest).map fun r => (x :: r.1, r.2) := by
  have hcomma : skipLayout false (',' :: rest) = some (',' :: rest) :=
    skipLayout_content (by decide) rest
  simp only [arrayItems, hcs, Option.bind_eq_bind, Option.bind_some]
  split
  · next heq => exact absurd (List.cons.inj heq).1 hc
  · simp only [hitem, hcomma, Option.bind_some]
    cases arrayItems item fuel rest <;> rfl

end Items

/-- One item of an array that takes a line for each. -/
def writeItem (text : String) : List Char :=
  [' ', ' ', ' ', ' '] ++ writeQuoted text.toList ++ [',', '\n']

/-- The items of an array that takes a line for each are read back, from the line break before
    them on. -/
theorem arrayItems_writeItem (room : Nat) (texts : List String) {fuel : Nat}
    (hfuel : texts.length ≤ fuel) (rest : List Char) :
    arrayItems (value (room + 1)) (fuel + 1) ('\n' :: (texts.flatMap writeItem ++ ']' :: rest)) =
      some (texts.map .string, rest) := by
  -- The line break that ends an item is the layout in front of the next one or of the bracket.
  induction texts generalizing fuel with
  | nil =>
    have hclose : skipLayout false (']' :: rest) = some (']' :: rest) :=
      skipLayout_content (by decide) rest
    simp [arrayItems, skipLayout_newline, hclose]
  | cons text texts ih =>
    obtain ⟨fuel, rfl⟩ : ∃ n, fuel = n + 1 := ⟨fuel - 1, by simp at hfuel; omega⟩
    let following := ',' :: '\n' :: (texts.flatMap writeItem ++ ']' :: rest)
    have hitem := value_writeQuoted room text following (notLed_cons.2 (by decide))
      (notLed_cons.2 (by decide))
    obtain ⟨c, t, heq, hcontent, hc⟩ := writeQuoted_content text.toList
    rw [heq, List.cons_append] at hitem
    have hline : '\n' :: ((text :: texts).flatMap writeItem ++ ']' :: rest) =
        '\n' :: ' ' :: ' ' :: ' ' :: ' ' :: c :: (t ++ following) := by
      simp [writeItem, heq, following]
    have hlayout : skipLayout false ('\n' :: ' ' :: ' ' :: ' ' :: ' ' :: c :: (t ++ following)) =
        some (c :: (t ++ following)) := by
      simp only [skipLayout_newline, skipLayout_space, skipLayout_content hcontent]
    rw [hline, arrayItems_comma hlayout hc hitem, ih (by simpa using hfuel)]
    rfl

theorem length_le_length_flatMap_writeItem (texts : List String) :
    texts.length ≤ (texts.flatMap writeItem).length := by
  induction texts with
  | nil => exact Nat.le_refl _
  | cons text texts ih =>
    simp only [List.flatMap_cons, writeItem, List.length_append, List.length_cons]
    omega

theorem value_bracket (room : Nat) (cs : List Char) :
    value (room + 2) ('[' :: cs) =
      (arrayItems (value (room + 1)) (cs.length + 1) cs).map fun r => (.array r.1, r.2) := by
  rw [value, if_neg (Nat.succ_ne_zero room)]

theorem writtenValue_texts (texts : List String) :
    WrittenValue (writeTexts texts) (.array (texts.map .string)) where
  content := by
    unfold writeTexts
    split <;> exact ⟨_, _, rfl, by decide⟩
  value_append rest _ _ := by
    -- The nesting limit leaves room for an array and the texts in it.
    change value (78 + 2) (writeTexts texts ++ rest) = _
    match texts with
    | [] =>
      have hclose : skipLayout false (']' :: rest) = some (']' :: rest) :=
        skipLayout_content (by decide) rest
      change value (78 + 2) ('[' :: ']' :: rest) = _
      rw [value_bracket]
      simp [arrayItems, hclose]
    | [text] =>
      have hitem := value_writeQuoted 78 text (']' :: rest) (notLed_cons.2 (by decide))
        (notLed_cons.2 (by decide))
      obtain ⟨c, t, heq, hcontent, hc⟩ := writeQuoted_content text.toList
      have hwritten : writeTexts [text] ++ rest = '[' :: c :: (t ++ ']' :: rest) := by
        simp [writeTexts, heq]
      rw [heq, List.cons_append] at hitem
      rw [hwritten, value_bracket, arrayItems_last (skipLayout_content hcontent _) hc hitem]
      rfl
    | a :: b :: texts =>
      have hwritten : writeTexts (a :: b :: texts) ++ rest =
          '[' :: '\n' :: ((a :: b :: texts).flatMap writeItem ++ ']' :: rest) := by
        change '[' :: '\n' :: ((a :: b :: texts).flatMap writeItem ++ [']']) ++ rest = _
        simp
      rw [hwritten, value_bracket, arrayItems_writeItem]
      · rfl
      · have := length_le_length_flatMap_writeItem (a :: b :: texts)
        simp only [List.length_cons, List.length_append] at this ⊢
        omega

/-! ## Keys -/

/-- Whether a key can stand without quotes. -/
def isBare (key : String) : Bool :=
  !key.toList.isEmpty && key.toList.all isBareKey

theorem isContent_of_isBareKey {c : Char} (h : isBareKey c = true) : isContent c = true := by
  have hne : ∀ x, isBareKey x = false → c ≠ x := by
    rintro x hx rfl
    exact absurd (h.symm.trans hx) (by decide)
  simp [isContent, isSpace, hne ' ' (by decide), hne '\t' (by decide), hne '\n' (by decide),
    hne '\r' (by decide), hne '#' (by decide)]

theorem isBare_begins {key : String} (h : isBare key = true) :
    ∃ c cs, key.toList = c :: cs ∧ isBareKey c = true := by
  unfold isBare at h
  cases hkey : key.toList with
  | nil => simp [hkey] at h
  | cons c cs => exact ⟨c, cs, rfl, by simp_all⟩

theorem isBare_notLed {key : String} (h : isBare key = true) {c : Char} (hc : isBareKey c = false)
    (cs : List Char) : NotLed c (key.toList ++ cs) := by
  obtain ⟨k, ks, heq, hk⟩ := isBare_begins h
  rw [heq]
  refine notLed_cons.2 ?_
  rintro rfl
  exact absurd (hk.symm.trans hc) (by decide)

/-- A bare key is read up to the first character that cannot belong to it. -/
theorem simpleKey_append {key : String} (hkey : isBare key = true) {c : Char}
    (hc : isBareKey c = false) (cs : List Char) :
    simpleKey (key.toList ++ c :: cs) = some (key, c :: cs) := by
  have hall : ∀ x ∈ key.toList, isBareKey x = true := by
    simp only [isBare, Bool.and_eq_true, List.all_eq_true] at hkey
    exact hkey.2
  have htake : (key.toList ++ c :: cs).takeWhile isBareKey = key.toList := by
    rw [List.takeWhile_append_of_pos hall, List.takeWhile_cons_of_neg (by simp [hc]),
      List.append_nil]
  have hdrop : (key.toList ++ c :: cs).dropWhile isBareKey = c :: cs := by
    rw [List.dropWhile_append_of_pos hall, List.dropWhile_cons_of_neg (by simp [hc])]
  obtain ⟨k, ks, heq, -⟩ := isBare_begins hkey
  unfold simpleKey
  split
  · next h => exact absurd h ((isBare_notLed hkey (by decide) _).ne_cons _)
  · next h => exact absurd h ((isBare_notLed hkey (by decide) _).ne_cons _)
  · rw [htake, hdrop, heq]
    change some (String.ofList (k :: ks), c :: cs) = _
    rw [← heq, String.ofList_toList]

/-- A bare key that no point follows is a path of its own. -/
theorem keyPath_append {key : String} (hkey : isBare key = true) {c : Char}
    (hc : isBareKey c = false) {cs : List Char} (hpoint : NotLed '.' (skipSpaces (c :: cs)))
    (room : Nat) :
    keyPath (room + 1) (key.toList ++ c :: cs) = some ([key], skipSpaces (c :: cs)) := by
  have hspaces : skipSpaces (key.toList ++ c :: cs) = key.toList ++ c :: cs := by
    obtain ⟨k, ks, heq, hk⟩ := isBare_begins hkey
    rw [heq, List.cons_append, skipSpaces_content (isContent_of_isBareKey hk)]
  simp only [keyPath, hspaces, simpleKey_append hkey hc, Option.bind_eq_bind, Option.bind_some]
  split
  · next h => rw [h] at hpoint; exact absurd rfl hpoint
  · rfl

/-! ## Lines -/

/-- A line that begins with a bare key is an entry. -/
theorem line_writeEntry {key : String} (hkey : isBare key = true) {written : List Char} {v : Value}
    (hv : WrittenValue written v) (rest : List Char) :
    line (writeEntry key written ++ rest) = some (.entry [key] v, '\n' :: rest) := by
  have hpath : path (key.toList ++ ' ' :: '=' :: ' ' :: (written ++ '\n' :: rest)) =
      some ([key], '=' :: ' ' :: (written ++ '\n' :: rest)) :=
    keyPath_append hkey (by decide) (notLed_cons.2 (by decide)) 78
  have hvalue : value nestingLimit (skipSpaces (' ' :: (written ++ '\n' :: rest))) =
      some (v, '\n' :: rest) := by
    obtain ⟨c, cs, heq, hc⟩ := hv.content
    have hspaces : skipSpaces (' ' :: (written ++ '\n' :: rest)) = written ++ '\n' :: rest := by
      rw [heq]
      exact skipSpaces_content hc (cs ++ '\n' :: rest)
    rw [hspaces]
    exact hv.value_append _ (notLed_cons.2 (by decide)) (notLed_cons.2 (by decide))
  have hwritten : writeEntry key written ++ rest =
      key.toList ++ ' ' :: '=' :: ' ' :: (written ++ '\n' :: rest) := by
    simp [writeEntry]
  rw [hwritten]
  unfold line
  split
  · next h => exact absurd h ((isBare_notLed hkey (by decide) _).ne_cons _)
  · next h => exact absurd h ((isBare_notLed hkey (by decide) _).ne_cons _)
  · simp [hpath, stripWord?, hvalue]

theorem line_header {key : String} (hkey : isBare key = true) (rest : List Char) :
    line ('[' :: (key.toList ++ ']' :: rest)) = some (.header [key], rest) := by
  have hpath : path (key.toList ++ ']' :: rest) = some ([key], ']' :: rest) :=
    keyPath_append hkey (by decide) (notLed_cons.2 (by decide)) 78
  rw [line]
  · simp [hpath, stripWord?]
  · exact fun cs => (isBare_notLed hkey (by decide) _).ne_cons cs

/-! ## Documents -/

/-- A text of whole lines that says these, whatever follows it. -/
structure Says (text : List Char) (ls : List Line) : Prop where
  unmarked : NotLed '\ufeff' text
  length_le : ls.length ≤ text.length
  lines_append : ∀ (fuel : Nat) (rest : List Char),
    lines (fuel + ls.length) (text ++ rest) = (lines fuel rest).map (ls ++ ·)

theorem says_nil : Says [] [] where
  unmarked := by simp [NotLed]
  length_le := Nat.le_refl _
  lines_append fuel rest := by simp

/-- What two texts say, they say one behind the other. -/
theorem Says.append {text text' : List Char} {ls ls' : List Line} (h : Says text ls)
    (h' : Says text' ls') : Says (text ++ text') (ls ++ ls') where
  unmarked := by
    cases text with
    | nil => exact h'.unmarked
    | cons c cs => exact h.unmarked
  length_le := by
    simp only [List.length_append]
    exact Nat.add_le_add h.length_le h'.length_le
  lines_append fuel rest := by
    rw [List.length_append, Nat.add_comm ls.length, ← Nat.add_assoc, List.append_assoc,
      h.lines_append, h'.lines_append, Option.map_map]
    congr 1
    funext ms
    simp

/-- A line that ends where the text does says one thing. -/
theorem says_line {c : Char} {cs : List Char} {l : Line} (hmark : c ≠ '\ufeff')
    (hc : isContent c = true)
    (hline : ∀ rest, line (c :: (cs ++ '\n' :: rest)) = some (l, '\n' :: rest)) :
    Says (c :: (cs ++ ['\n'])) [l] where
  unmarked := notLed_cons.2 hmark
  length_le := by simp
  lines_append fuel rest := by
    have htext : c :: (cs ++ ['\n']) ++ rest = c :: (cs ++ '\n' :: rest) := by simp
    have hend : endLine? ('\n' :: rest) = some rest := rfl
    change lines (fuel + 1) (c :: (cs ++ ['\n']) ++ rest) = _
    rw [htext, lines, skipLayout_content hc]
    simp only [Option.bind_eq_bind, Option.bind_some, hline, hend]
    cases lines fuel rest <;> rfl

/-- An empty line in front says nothing. -/
theorem Says.newline {text : List Char} {ls : List Line} (h : Says text ls) :
    Says ('\n' :: text) ls where
  unmarked := notLed_cons.2 (by decide)
  length_le := Nat.le_succ_of_le h.length_le
  lines_append fuel rest := by
    rw [← h.lines_append, List.cons_append]
    cases fuel + ls.length with
    | zero => rfl
    | succ n => rw [lines, lines, skipLayout_newline]

theorem ne_mark_of_isBareKey {c : Char} (h : isBareKey c = true) : c ≠ '\ufeff' := by
  rintro rfl
  exact absurd h (by decide)

theorem says_writeEntry {key : String} (hkey : isBare key = true) {written : List Char} {v : Value}
    (hv : WrittenValue written v) : Says (writeEntry key written) [.entry [key] v] := by
  obtain ⟨k, ks, heq, hk⟩ := isBare_begins hkey
  have hwritten : ∀ rest, writeEntry key written ++ rest =
      k :: ((ks ++ [' ', '=', ' '] ++ written) ++ '\n' :: rest) := by
    intro rest
    simp [writeEntry, heq]
  rw [← List.append_nil (writeEntry key written), hwritten []]
  refine says_line (ne_mark_of_isBareKey hk) (isContent_of_isBareKey hk) fun rest => ?_
  rw [← hwritten rest]
  exact line_writeEntry hkey hv rest

theorem says_writeHeader {key : String} (hkey : isBare key = true) :
    Says (writeHeader key) [.header [key]] := by
  have hwritten : writeHeader key = '\n' :: '[' :: ((key.toList ++ [']']) ++ ['\n']) := by
    simp [writeHeader]
  rw [hwritten]
  refine (says_line (by decide) (by decide) fun rest => ?_).newline
  rw [List.append_assoc]
  exact line_header hkey ('\n' :: rest)

/-- A document is the table of what it says. -/
theorem Says.parse? {text : List Char} {ls : List Line} (h : Says text ls) :
    parse? (String.ofList text) = ofLines? ls := by
  have hmark : dropMark text = text := by
    unfold dropMark
    split
    · exact absurd rfl h.unmarked
    · rfl
  -- Every line takes a character, so one more than the length is fuel for all and for the end.
  have hfuel : text.length + 1 = (text.length - ls.length + 1) + ls.length := by
    have := h.length_le
    omega
  have hlines : lines (text.length + 1) text = some ls := by
    have hread := h.lines_append (text.length - ls.length + 1) []
    rw [← hfuel, List.append_nil] at hread
    rw [hread]
    simp [lines, skipLayout]
  rw [Toml.parse?, readLines?, String.toList_ofList, hmark, hlines, Option.bind_some]

end QueryLint.Toml

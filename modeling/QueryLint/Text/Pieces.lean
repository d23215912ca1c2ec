/-
  QueryLint.Text.Pieces

  Cutting a text into pieces: at every occurrence of a character, and into lines. The
  lemmas say where cuts are made and that no piece holds the character.
-/
namespace QueryLint.Text

/-- The pieces between the occurrences of a character; there is always at least one. -/
def pieces (separator : Char) : List Char → List (List Char)
  | [] => [[]]
  | c :: cs =>
    if c = separator then [] :: pieces separator cs
    else match pieces separator cs with
      | [] => [[c]]
      | piece :: rest => (c :: piece) :: rest

/-- Drop a carriage return from the end. -/
def dropReturn (cs : List Char) : List Char :=
  if cs.getLast? = some '\r' then cs.dropLast else cs

/-- The lines of a text. A line ends with a line feed or with a carriage return and a line feed; the
    last line need not end so, and is no line if it is empty. -/
def lines (cs : List Char) : List (List Char) :=
  let all := pieces '\n' cs
  all.dropLast.map dropReturn ++ (all.getLast?.filter (· ≠ [])).toList

/-! ## Lemmas -/

/-- There is always a piece. -/
theorem pieces_ne_nil (separator : Char) (cs : List Char) : pieces separator cs ≠ [] := by
  induction cs with
  | nil => simp [pieces]
  | cons c cs ih =>
    unfold pieces
    split
    · simp
    · split <;> simp

/-- A text is cut at an occurrence of the character. -/
theorem pieces_cons_separator (separator : Char) (cs : List Char) :
    pieces separator (separator :: cs) = [] :: pieces separator cs := by
  rw [pieces, if_pos rfl]

/-- A text without the character is one piece. -/
theorem pieces_of_not_mem {separator : Char} {cs : List Char} (h : separator ∉ cs) :
    pieces separator cs = [cs] := by
  induction cs with
  | nil => rfl
  | cons c cs ih =>
    have hc : c ≠ separator := fun e => h (by simp [e])
    rw [pieces, if_neg hc, ih (fun hm => h (List.mem_cons_of_mem _ hm))]

/-- No piece holds the character. -/
theorem not_mem_of_mem_pieces {separator : Char} {cs piece : List Char}
    (h : piece ∈ pieces separator cs) : separator ∉ piece := by
  induction cs generalizing piece with
  | nil => simp_all [pieces]
  | cons c cs ih =>
    unfold pieces at h
    split at h
    · rcases List.mem_cons.1 h with rfl | h
      · simp
      · exact ih h
    · rename_i hc
      split at h
      · rename_i he
        exact absurd he (pieces_ne_nil separator cs)
      · rename_i first rest he
        rcases List.mem_cons.1 h with rfl | h
        · intro hm
          rcases List.mem_cons.1 hm with rfl | hm
          · exact hc rfl
          · exact ih (he ▸ List.mem_cons_self) hm
        · exact ih (he ▸ List.mem_cons_of_mem _ h)

/-- A piece holds characters of the text only. -/
theorem mem_of_mem_pieces {separator c : Char} {cs piece : List Char}
    (h : piece ∈ pieces separator cs) (hc : c ∈ piece) : c ∈ cs := by
  induction cs generalizing piece with
  | nil => simp_all [pieces]
  | cons first cs ih =>
    unfold pieces at h
    split at h
    · rcases List.mem_cons.1 h with rfl | h
      · cases hc
      · exact List.mem_cons_of_mem _ (ih h hc)
    · split at h
      · rename_i he
        exact absurd he (pieces_ne_nil separator cs)
      · rename_i second rest he
        rcases List.mem_cons.1 h with rfl | h
        · rcases List.mem_cons.1 hc with rfl | hc
          · exact List.mem_cons_self
          · exact List.mem_cons_of_mem _ (ih (he ▸ List.mem_cons_self) hc)
        · exact List.mem_cons_of_mem _ (ih (he ▸ List.mem_cons_of_mem _ h) hc)

end QueryLint.Text

/-
  QueryLint.Proofs.SkippedFiles

  Which names a pattern matches, said by cutting the name. The text before the first `*` of the
  pattern and the text after it are compared octet by octet, each on its own, and only the
  lengths keep them apart. `fitsAround_iff` says that this amounts to a middle part between the
  two: what is left of the name behind the one is long enough for the other, and no character is
  cut in two.
-/
import QueryLint.Source.Pattern
import QueryLint.Proofs.Octets

namespace QueryLint.Source

open QueryLint.Text

/-- The two ends fit exactly if the name is made of them and a part between. -/
theorem fitsAround_iff {front back name : List Char} :
    fitsAround front back name = true ↔ ∃ middle, name = front ++ middle ++ back := by
  simp only [fitsAround, Bool.and_eq_true, decide_eq_true_eq, List.isPrefixOf_iff_prefix,
    List.isSuffixOf_iff_suffix, octets_prefix_iff]
  constructor
  · rintro ⟨⟨hroom, rest, rfl⟩, hback⟩
    rw [octets_append, List.length_append] at hroom
    rw [octets_append] at hback
    -- Both the end and what is left behind the front end the name, and the end is no longer.
    have hrest : octets back <:+ octets rest :=
      List.suffix_of_suffix_length_le hback (List.suffix_append ..) (by omega)
    obtain ⟨middle, rfl⟩ := octets_suffix_iff.1 hrest
    exact ⟨middle, (List.append_assoc ..).symm⟩
  · rintro ⟨middle, rfl⟩
    refine ⟨⟨?_, middle ++ back, (List.append_assoc ..).symm⟩, ?_⟩
    · simp only [octets_append, List.length_append]
      omega
    · rw [octets_append]
      exact List.suffix_append ..

/-- A pattern is cut at its first `*`. -/
theorem matchesChars_star {front back : List Char} (hfront : '*' ∉ front) (name : List Char) :
    matchesChars (front ++ '*' :: back) name = true ↔
      front ++ '*' :: back = ['*', '*'] ∨ ∃ middle, name = front ++ middle ++ back := by
  have hkeep : ∀ c ∈ front, (c != '*') = true := by
    intro c hc
    rw [bne_iff_ne]
    rintro rfl
    exact hfront hc
  have htake : (front ++ '*' :: back).takeWhile (· != '*') = front := by
    rw [List.takeWhile_append_of_pos hkeep, List.takeWhile_cons_of_neg (by decide),
      List.append_nil]
  have hdrop : (front ++ '*' :: back).dropWhile (· != '*') = '*' :: back := by
    rw [List.dropWhile_append_of_pos hkeep, List.dropWhile_cons_of_neg (by decide)]
  have hstar : (front ++ '*' :: back).contains '*' = true := by simp
  rw [matchesChars, hstar, htake, hdrop, List.drop_one, List.tail_cons, ← fitsAround_iff]
  by_cases hall : front ++ '*' :: back = ['*', '*']
  · simp [hall]
  · simp [hall]

theorem matchesChars_plain {pattern : List Char} (h : '*' ∉ pattern) (name : List Char) :
    matchesChars pattern name = true ↔ pattern = name := by
  have hstar : pattern.contains '*' = false := by simpa using h
  rw [matchesChars, hstar]
  simp

/-- A file is skipped exactly if one of the patterns has no `*` and is its name, is `**`, or has
    its first `*` between two texts with which the name begins and ends, without overlap. A
    further `*` of a pattern stands for itself. -/
theorem skipped_exactly (patterns : List String) (name : String) :
    isSkipped patterns name = true ↔ ∃ pattern ∈ patterns,
      ('*' ∉ pattern.toList ∧ pattern = name) ∨ pattern = "**" ∨
      ∃ front middle back : String, '*' ∉ front.toList ∧ pattern = front ++ "*" ++ back ∧
        name = front ++ middle ++ back := by
  rw [isSkipped, List.any_eq_true]
  refine exists_congr fun pattern => and_congr_right fun _ => ?_
  constructor
  · intro hmatch
    by_cases hstar : '*' ∈ pattern.toList
    · obtain ⟨front, back, hpattern, hfront⟩ := List.eq_append_cons_of_mem hstar
      rw [hpattern, matchesChars_star hfront, ← hpattern] at hmatch
      rcases hmatch with hall | ⟨middle, hname⟩
      · exact .inr (.inl (String.toList_inj.1 hall))
      · refine .inr (.inr ⟨.ofList front, .ofList middle, .ofList back, ?_, ?_, ?_⟩)
        · rwa [String.toList_ofList]
        · apply String.toList_inj.1
          simp [hpattern]
        · apply String.toList_inj.1
          simp [hname]
    · exact .inl ⟨hstar, String.toList_inj.1 ((matchesChars_plain hstar _).1 hmatch)⟩
  · rintro (⟨hstar, rfl⟩ | rfl | ⟨front, middle, back, hfront, rfl, rfl⟩)
    · exact (matchesChars_plain hstar _).2 rfl
    · exact (@matchesChars_star [] ['*'] List.not_mem_nil _).2 (.inl rfl)
    · have hsplit : (front ++ "*" ++ back).toList = front.toList ++ '*' :: back.toList := by simp
      rw [hsplit, matchesChars_star hfront]
      exact .inr ⟨middle.toList, by simp⟩

end QueryLint.Source

/-
  QueryLint.Proofs.Outline

  The outline of a text: its characters in upper case, white space left out, each with a
  note whether white space stands before it. It is what remains of a text once letter case
  and layout are forgotten.

  How often a parenthesis or a quote stands in a text, whether it mentions `SELECT` and
  whether, trimmed, it begins with `SELECT` are told by the outline. An octet offset is not,
  since layout changes it; its rank is, the number of visible characters before it, and ranks
  keep the order of offsets (`rank_lt_iff`).
-/
import QueryLint.Proofs.ParenSafety
import QueryLint.Text.Blank
import Mathlib.Data.List.TakeWhile

namespace QueryLint.Text

/-! ## Upper case -/

/-- The letters that have an upper case of their own. -/
def lowerLetters : List Char :=
  (List.range 26).map fun i => Char.ofNat (97 + i)

/-- Upper case changes lower-case letters only. -/
theorem toUpper_of_not_mem {c : Char} (h : c ∉ lowerLetters) : c.toUpper = c := by
  have hrange : ¬ ('a'.val ≤ c.val ∧ c.val ≤ 'z'.val) := by
    intro hc
    rw [UInt32.le_iff_toNat_le, UInt32.le_iff_toNat_le] at hc
    -- The list has the letter at its distance from `a`.
    have ha : 'a'.val.toNat = 97 := rfl
    have hz : 'z'.val.toNat = 122 := rfl
    have hn : c.val.toNat = c.toNat := rfl
    refine h (List.mem_map.2 ⟨c.toNat - 97, List.mem_range.2 (by omega), ?_⟩)
    rw [show 97 + (c.toNat - 97) = c.toNat by omega, Char.ofNat_toNat]
  exact dif_neg hrange

/-- What takes the same value at each letter in lower and in upper case does not see case. -/
theorem apply_toUpper {α : Type} [DecidableEq α] (f : Char → α)
    (hf : (lowerLetters.all fun c => decide (f c.toUpper = f c)) = true) (c : Char) :
    f c.toUpper = f c := by
  by_cases hc : c ∈ lowerLetters
  · exact of_decide_eq_true (List.all_eq_true.1 hf c hc)
  · rw [toUpper_of_not_mem hc]

@[simp] theorem toUpper_toUpper (c : Char) : c.toUpper.toUpper = c.toUpper :=
  apply_toUpper Char.toUpper (by decide) c

@[simp] theorem isBlank_toUpper (c : Char) : isBlank c.toUpper = isBlank c :=
  apply_toUpper isBlank (by decide) c

/-- Whether no letter becomes this character, or stops being it, in upper case. -/
def isCaseless (x : Char) : Bool :=
  lowerLetters.all fun c => decide ((c.toUpper == x) = (c == x))

theorem toUpper_eq_iff {x : Char} (hx : isCaseless x = true) (c : Char) :
    c.toUpper = x ↔ c = x := by
  have hbeq : (c.toUpper == x) = (c == x) := apply_toUpper (· == x) hx c
  rwa [Bool.eq_iff_iff, beq_iff_eq, beq_iff_eq] at hbeq

theorem blank_ne {c x : Char} (hc : isBlank c = true) (hx : isBlank x = false) : c ≠ x := by
  rintro rfl
  rw [hc] at hx
  cases hx

/-! ## Outlines -/

/-- A visible character in upper case, and whether white space stands before it. -/
structure Mark where
  gap : Bool
  char : Char
  deriving DecidableEq, Repr

/-- The outline of a text before which white space stands or not. -/
def outlineFrom (gap : Bool) : List Char → List Mark
  | [] => []
  | c :: cs => if isBlank c then outlineFrom true cs else ⟨gap, c.toUpper⟩ :: outlineFrom false cs

/-- The outline of a text. Its beginning counts as white space, so that white space at either
    end leaves no trace. -/
def outline (cs : List Char) : List Mark :=
  outlineFrom true cs

@[simp] theorem outlineFrom_nil (gap : Bool) : outlineFrom gap [] = [] := rfl

theorem outlineFrom_blank {c : Char} (hc : isBlank c = true) (gap : Bool) (cs : List Char) :
    outlineFrom gap (c :: cs) = outlineFrom true cs := by
  rw [outlineFrom, if_pos hc]

theorem outlineFrom_visible {c : Char} (hc : isBlank c = false) (gap : Bool) (cs : List Char) :
    outlineFrom gap (c :: cs) = ⟨gap, c.toUpper⟩ :: outlineFrom false cs := by
  rw [outlineFrom, if_neg (by simp [hc])]

/-- Whether white space stands at the end of a text before which it stands or not. -/
def gapAfter (gap : Bool) (cs : List Char) : Bool :=
  (cs.getLast?.map isBlank).getD gap

theorem gapAfter_cons (gap : Bool) (c : Char) (cs : List Char) :
    gapAfter gap (c :: cs) = gapAfter (isBlank c) cs := by
  cases cs <;> simp [gapAfter, List.getLast?_cons]

theorem outlineFrom_append (gap : Bool) (a b : List Char) :
    outlineFrom gap (a ++ b) = outlineFrom gap a ++ outlineFrom (gapAfter gap a) b := by
  induction a generalizing gap with
  | nil => rfl
  | cons c a ih =>
    rw [List.cons_append, gapAfter_cons]
    cases hc : isBlank c with
    | true => rw [outlineFrom_blank hc, outlineFrom_blank hc, ih]
    | false => rw [outlineFrom_visible hc, outlineFrom_visible hc, ih, List.cons_append]

theorem outlineFrom_of_blank {cs : List Char} (h : ∀ c ∈ cs, isBlank c = true) (gap : Bool) :
    outlineFrom gap cs = [] := by
  induction cs generalizing gap with
  | nil => rfl
  | cons c cs ih =>
    rw [outlineFrom_blank (h c List.mem_cons_self), ih fun d hd => h d (List.mem_cons_of_mem _ hd)]

/-- Forget whether white space stands before the first mark. -/
def loosen : List Mark → List Mark
  | [] => []
  | m :: ms => ⟨true, m.char⟩ :: ms

theorem loosen_outlineFrom (gap : Bool) (cs : List Char) :
    loosen (outlineFrom gap cs) = outline cs := by
  cases cs with
  | nil => rfl
  | cons c cs =>
    rw [outline]
    cases hc : isBlank c with
    | true =>
      -- What stands before a blank is forgotten there, so only the first visible one is left.
      rw [outlineFrom_blank hc, outlineFrom_blank hc]
      induction cs with
      | nil => rfl
      | cons d cs ih =>
        cases hd : isBlank d with
        | true => rw [outlineFrom_blank hd, ih]
        | false =>
          rw [outlineFrom_visible hd]
          rfl
    | false =>
      rw [outlineFrom_visible hc, outlineFrom_visible hc]
      rfl

/-! ## Trimming -/

theorem outline_trimStart (cs : List Char) : outline (trimStart cs) = outline cs := by
  rw [trimStart, outline, outline]
  induction cs with
  | nil => rfl
  | cons c cs ih =>
    cases hc : isBlank c with
    | true => rw [List.dropWhile_cons_of_pos hc, outlineFrom_blank hc, ih]
    | false => rw [List.dropWhile_cons_of_neg (by simp [hc])]

/-- What is dropped from the end of a text is of the class that is dropped. -/
theorem exists_dropEndWhile_append (p : Char → Bool) (cs : List Char) :
    ∃ s, cs = dropEndWhile p cs ++ s ∧ ∀ c ∈ s, p c = true := by
  refine ⟨(cs.reverse.takeWhile p).reverse, ?_, ?_⟩
  · rw [dropEndWhile, ← List.reverse_append, List.takeWhile_append_dropWhile,
      List.reverse_reverse]
  · intro c hc
    exact List.mem_takeWhile_imp (List.mem_reverse.1 hc)

theorem exists_trimEnd_append (cs : List Char) :
    ∃ s, cs = trimEnd cs ++ s ∧ ∀ c ∈ s, isBlank c = true :=
  exists_dropEndWhile_append isBlank cs

theorem outlineFrom_trimEnd (gap : Bool) (cs : List Char) :
    outlineFrom gap (trimEnd cs) = outlineFrom gap cs := by
  obtain ⟨s, hs, hblank⟩ := exists_trimEnd_append cs
  conv_rhs => rw [hs, outlineFrom_append, outlineFrom_of_blank hblank, List.append_nil]

@[simp] theorem outline_trim (cs : List Char) : outline (trim cs) = outline cs := by
  rw [trim, outline, outlineFrom_trimEnd]
  exact outline_trimStart cs

/-! ## What the outline of a text tells -/

/-- A visible character without case stands in a text as often as in its outline. -/
theorem count_outlineFrom {x : Char} (hx : isBlank x = false) (hcase : isCaseless x = true)
    (gap : Bool) (cs : List Char) :
    ((outlineFrom gap cs).map Mark.char).count x = cs.count x := by
  have hupper : ∀ c : Char, (c.toUpper == x) = (c == x) := apply_toUpper (· == x) hcase
  induction cs generalizing gap with
  | nil => rfl
  | cons c cs ih =>
    cases hc : isBlank c with
    | true =>
      have hne : (c == x) = false := beq_eq_false_iff_ne.2 (blank_ne hc hx)
      rw [outlineFrom_blank hc, ih, List.count_cons, hne]
      simp
    | false =>
      rw [outlineFrom_visible hc, List.map_cons, List.count_cons, List.count_cons, ih, hupper]

/-- The marks of a word that stands by itself. -/
def wordMarks (word : List Char) : List Mark :=
  word.map (Mark.mk false)

/-- Whether an outline begins with a word. -/
def beginsWith (word : List Char) : List Mark → Bool
  | [] => word.isEmpty
  | m :: ms => (wordMarks word).isPrefixOf (⟨false, m.char⟩ :: ms)

/-- Whether an outline holds a word, without white space in it. -/
def holds (word : List Char) : List Mark → Bool
  | [] => word.isEmpty
  | m :: ms => beginsWith word (m :: ms) || holds word ms

theorem visible_beq_blank {w c : Char} (hw : isBlank w = false) (hc : isBlank c = true) :
    (w == c.toUpper) = false := by
  rw [beq_eq_false_iff_ne]
  exact (blank_ne ((isBlank_toUpper c).trans hc) hw).symm

/-- A word of visible characters begins a text in upper case exactly if it begins the marks
    of the text. -/
theorem isPrefixOf_outlineFrom {word : List Char} (hword : ∀ w ∈ word, isBlank w = false)
    (cs : List Char) :
    (wordMarks word).isPrefixOf (outlineFrom false cs) = word.isPrefixOf (upperAscii cs) := by
  induction word generalizing cs with
  | nil => simp [wordMarks]
  | cons w word ih =>
    have hw := hword w List.mem_cons_self
    cases cs with
    | nil => rfl
    | cons c cs =>
      have hrest := ih (fun v hv => hword v (List.mem_cons_of_mem _ hv)) cs
      rw [upperAscii, List.map_cons, List.isPrefixOf_cons_cons, wordMarks, List.map_cons]
      cases hc : isBlank c with
      | true =>
        -- No mark of a word has white space before it, and no character of one is white space.
        rw [outlineFrom_blank hc, visible_beq_blank hw hc, Bool.false_and, ← outline,
          ← loosen_outlineFrom true]
        cases outlineFrom true cs with
        | nil => rfl
        | cons m ms =>
          rw [loosen, List.isPrefixOf_cons_cons, beq_eq_false_iff_ne.2 (by simp), Bool.false_and]
      | false =>
        rw [outlineFrom_visible hc, List.isPrefixOf_cons_cons]
        have hmark : ((⟨false, w⟩ : Mark) == ⟨false, c.toUpper⟩) = (w == c.toUpper) := by
          rw [Bool.eq_iff_iff, beq_iff_eq, beq_iff_eq, Mark.mk.injEq]
          simp
        rw [hmark]
        exact congrArg _ hrest

theorem beginsWith_loosen (word : List Char) (ms : List Mark) :
    beginsWith word (loosen ms) = beginsWith word ms := by
  cases ms <;> rfl

theorem beginsWith_outlineFrom_trim {word : List Char} (hword : ∀ w ∈ word, isBlank w = false)
    (gap : Bool) (cs : List Char) :
    beginsWith word (outlineFrom gap cs) = word.isPrefixOf (upperAscii (trim cs)) := by
  rw [← beginsWith_loosen, loosen_outlineFrom, ← outline_trim, ← isPrefixOf_outlineFrom hword]
  -- A trimmed text is empty or begins with a visible character.
  cases htrim : trim cs with
  | nil =>
    cases word with
    | nil => rfl
    | cons w word => rfl
  | cons c t =>
    have hc : isBlank c = false := by
      have hprefix := dropEndWhile_prefix isBlank (trimStart cs)
      change trim cs <+: trimStart cs at hprefix
      rw [htrim] at hprefix
      obtain ⟨u, hu⟩ := hprefix
      have hhead := List.head?_dropWhile_not isBlank cs
      rw [show cs.dropWhile isBlank = trimStart cs from rfl, ← hu] at hhead
      simpa using hhead
    rw [outline, outlineFrom_visible hc, outlineFrom_visible hc]
    rfl

theorem holds_outlineFrom {word : List Char} (hword : ∀ w ∈ word, isBlank w = false)
    (hne : word ≠ []) (gap : Bool) (cs : List Char) :
    holds word (outlineFrom gap cs) = hasInfix word (upperAscii cs) := by
  induction cs generalizing gap with
  | nil => rfl
  | cons c cs ih =>
    rw [upperAscii, List.map_cons, hasInfix, ← List.map_cons, ← upperAscii, ← upperAscii,
      ← isPrefixOf_outlineFrom hword, ← ih (isBlank c)]
    cases hc : isBlank c with
    | true =>
      have hnot : (wordMarks word).isPrefixOf (outlineFrom false (c :: cs)) = false := by
        rw [isPrefixOf_outlineFrom hword]
        cases word with
        | nil => exact absurd rfl hne
        | cons w word =>
          rw [upperAscii, List.map_cons, List.isPrefixOf_cons_cons,
            visible_beq_blank (hword w List.mem_cons_self) hc, Bool.false_and]
      rw [hnot, Bool.false_or, outlineFrom_blank hc]
    | false =>
      rw [outlineFrom_visible hc, outlineFrom_visible hc]
      rfl

/-- The word that makes a parenthesised group a subquery. -/
def selectWord : List Char :=
  ['S', 'E', 'L', 'E', 'C', 'T']

theorem selectWord_visible : ∀ w ∈ selectWord, isBlank w = false := by
  have hall : (selectWord.all fun w => !isBlank w) = true := by decide
  intro w hw
  simpa using List.all_eq_true.1 hall w hw

/-- Whether a text mentions `SELECT` is told by its outline. -/
theorem mentionsSelect_outlineFrom (gap : Bool) (cs : List Char) :
    mentionsSelect cs = holds selectWord (outlineFrom gap cs) :=
  (holds_outlineFrom selectWord_visible (by decide) gap cs).symm

/-- Whether a trimmed text begins with `SELECT` is told by its outline. -/
theorem beginsWithSelect_outlineFrom (gap : Bool) (cs : List Char) :
    beginsWithSelect (trim cs) = beginsWith selectWord (outlineFrom gap cs) := by
  rw [beginsWith_outlineFrom_trim selectWord_visible, Bool.eq_iff_iff, beginsWithSelect, beq_iff_eq,
    List.isPrefixOf_iff_prefix, List.prefix_iff_eq_take, upperAscii, upperAscii, ← List.map_take]
  exact eq_comm

/-! ## Ranks -/

/-- The number of visible characters before an octet offset. -/
def rank (cs : List Char) (offset : Nat) : Nat :=
  match charIndex? cs offset with
  | some k => (outline (cs.take k)).length
  | none => 0

theorem rank_utf8Size (a b : List Char) : rank (a ++ b) (utf8Size a) = (outline a).length := by
  have hindex : charIndex? (a ++ b) (utf8Size a) = some a.length :=
    charIndex?_eq_some_iff.2 ⟨a, b, rfl, rfl, rfl⟩
  rw [rank, hindex]
  simp only
  rw [List.take_left']
  rfl

/-- An octet offset at which a visible character stands. -/
def IsVisibleAt (cs : List Char) (offset : Nat) : Prop :=
  ∃ a x b, cs = a ++ x :: b ∧ isBlank x = false ∧ utf8Size a = offset

/-- A visible character between two offsets makes the rank of the second greater. -/
theorem rank_lt_of_lt {cs : List Char} {i j : Nat} (hi : IsVisibleAt cs i) (hj : IsVisibleAt cs j)
    (hlt : i < j) : rank cs i < rank cs j := by
  obtain ⟨a, x, b, rfl, hx, rfl⟩ := hi
  obtain ⟨c, y, d, hsplit, -, rfl⟩ := hj
  -- The longer beginning holds the visible character that follows the shorter one.
  rcases List.append_eq_append_iff.1 hsplit with ⟨m, rfl, hm⟩ | ⟨m, rfl, -⟩
  · cases m with
    | nil => simp at hlt
    | cons z m =>
      injection hm with hxz hb
      subst hxz
      rw [hsplit, rank_utf8Size, ← hsplit, rank_utf8Size, outline, outline, outlineFrom_append,
        outlineFrom_visible hx]
      simp
  · rw [utf8Size_append] at hlt
    omega

/-- Ranks keep the order of the offsets at which visible characters stand. -/
theorem rank_lt_iff {cs : List Char} {i j : Nat} (hi : IsVisibleAt cs i) (hj : IsVisibleAt cs j) :
    rank cs i < rank cs j ↔ i < j := by
  refine ⟨fun h => ?_, rank_lt_of_lt hi hj⟩
  by_contra hle
  rcases Nat.lt_or_eq_of_le (Nat.le_of_not_lt hle) with hlt | rfl
  · have := rank_lt_of_lt hj hi hlt
    omega
  · omega

end QueryLint.Text

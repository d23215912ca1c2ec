/-
  QueryLint.Proofs.Lexing

  What tokenizing a text gives, said without the lexer: a text is cut into lexemes,
  each the match of the first lexical class that matches at its place, and the tokens
  are those lexemes less the blank ones. `tokenize_exact` says that a text has tokens
  exactly if it is such a sequence of lexemes to its end, and otherwise an error at
  the first character left over.

  `cut_eq_iff` is the same for lexemes and is what the rest is built on. Lines are
  counted two ways: the lexer keeps a running line, the statement counts line breaks in
  the text before.
-/
import QueryLint.Proofs.LexPattern
import QueryLint.Token.Lexer
import Mathlib.Data.List.ReduceOption

namespace QueryLint.Token

open QueryLint.Text

/-! ## Sequences of lexemes -/

/-- The text of lexemes, one after another. -/
def textOf (ls : List Lexeme) : List Char :=
  (ls.map Lexeme.text).flatten

@[simp] theorem textOf_nil : textOf [] = [] := rfl

@[simp] theorem textOf_cons (l : Lexeme) (ls : List Lexeme) :
    textOf (l :: ls) = l.text ++ textOf ls := rfl

@[simp] theorem textOf_append (ls ms : List Lexeme) :
    textOf (ls ++ ms) = textOf ls ++ textOf ms := by
  simp [textOf]

/-- The lexeme is what the first class that matches before `rest` matches there. -/
structure Lexeme.IsFirstMatch (l : Lexeme) (rest : List Char) : Prop where
  nonempty : l.text ≠ []
  matched : l.lexClass.pattern.matched? (l.text ++ rest) = some l.text
  earlier : ∀ k ∈ LexClass.all.takeWhile (· ≠ l.lexClass),
    k.pattern.matched? (l.text ++ rest) = none

/-- The lexemes stand one after another before `rest`, each the first match at its place. -/
def Lexed : List Lexeme → List Char → Prop
  | [], _ => True
  | l :: ls, rest => l.IsFirstMatch (textOf ls ++ rest) ∧ Lexed ls rest

/-! ## The first match -/

/-- A search that keeps what it found beside its answer finds the first that answers. -/
theorem findSome?_map_mk {α β : Type} [DecidableEq α] (f : α → Option β) {as : List α} {a : α}
    (ha : a ∈ as) (b : β) :
    (as.findSome? fun x => (f x).map fun y => (x, y)) = some (a, b) ↔
      f a = some b ∧ ∀ x ∈ as.takeWhile (· ≠ a), f x = none := by
  induction as with
  | nil => simp at ha
  | cons x as ih =>
    rw [List.findSome?_cons]
    by_cases hx : x = a
    · subst hx
      rw [List.takeWhile_cons_of_neg (by simp)]
      cases hf : f x with
      | some y => simp
      | none =>
        -- What is found further on answers, and `x` does not.
        have hne : (as.findSome? fun z => (f z).map fun y => (z, y)) ≠ some (x, b) := by
          intro h
          obtain ⟨z, -, hz⟩ := List.exists_of_findSome?_eq_some h
          obtain ⟨y, hy, he⟩ := Option.map_eq_some_iff.1 hz
          cases he
          rw [hf] at hy
          cases hy
        simpa using hne
    · have ha' : a ∈ as := (List.mem_cons.1 ha).resolve_left (Ne.symm hx)
      rw [List.takeWhile_cons_of_pos (by simpa using hx)]
      cases hf : f x with
      | some y => simp [hx, hf]
      | none => simp [ih ha', hf]

theorem LexClass.mem_all (k : LexClass) : k ∈ LexClass.all := by
  cases k <;> decide

theorem firstMatch?_eq_some_iff {cs : List Char} {k : LexClass} {n : Nat} :
    firstMatch? cs = some (k, n) ↔
      k.matchLength? cs = some n ∧
        ∀ j ∈ LexClass.all.takeWhile (· ≠ k), j.matchLength? cs = none :=
  findSome?_map_mk (fun j : LexClass => j.matchLength? cs) k.mem_all n

theorem firstMatch?_eq_none_iff {cs : List Char} :
    firstMatch? cs = none ↔ ∀ k : LexClass, k.pattern.matched? cs = none := by
  simp only [LexClass.matched?_pattern, Option.map_eq_none_iff]
  constructor
  · intro h k
    have hk := List.findSome?_eq_none_iff.1 h k k.mem_all
    rwa [Option.map_eq_none_iff] at hk
  · intro h
    rw [firstMatch?, List.findSome?_eq_none_iff]
    intro k _
    rw [h k]
    rfl

/-- A first match, in terms of what the lexer tries. -/
theorem Lexeme.isFirstMatch_iff {l : Lexeme} {rest : List Char} :
    l.IsFirstMatch rest ↔ firstMatch? (l.text ++ rest) = some (l.lexClass, l.text.length) := by
  rw [firstMatch?_eq_some_iff]
  constructor
  · rintro ⟨-, hmatched, hearlier⟩
    -- The length of the match is that of its text, since a match stays within the text.
    rw [LexClass.matched?_pattern] at hmatched
    obtain ⟨n, hn, htake⟩ := Option.map_eq_some_iff.1 hmatched
    have hlen : n = l.text.length := by
      have hle := (LexClass.matchLength?_bounds hn).2
      have := congrArg List.length htake
      rw [List.length_take] at this
      omega
    refine ⟨hlen ▸ hn, ?_⟩
    intro j hj
    have hnone := hearlier j hj
    rwa [LexClass.matched?_pattern, Option.map_eq_none_iff] at hnone
  · rintro ⟨hn, hearlier⟩
    refine ⟨?_, ?_, ?_⟩
    · have hpos := (LexClass.matchLength?_bounds hn).1
      exact List.length_pos_iff.1 hpos
    · rw [LexClass.matched?_pattern, hn]
      simp
    · intro j hj
      rw [LexClass.matched?_pattern, hearlier j hj]
      rfl

theorem firstMatch?_nil : firstMatch? [] = none := by
  cases h : firstMatch? [] with
  | none => rfl
  | some r =>
    obtain ⟨k, n⟩ := r
    have := firstMatch?_bounds h
    simp at this
    omega

/-! ## Cutting -/

/-- Cutting gives lexemes and a rest exactly if the lexemes are first matches before it and
    no class matches at the rest. -/
theorem cut_eq_iff {cs r : List Char} {ls : List Lexeme} :
    cut cs = ⟨ls, r⟩ ↔ cs = textOf ls ++ r ∧ Lexed ls r ∧ firstMatch? r = none := by
  induction ls generalizing cs with
  | nil =>
    constructor
    · intro h
      cases hm : firstMatch? cs with
      | none =>
        rw [cut_of_none hm] at h
        cases h
        exact ⟨rfl, trivial, hm⟩
      | some m =>
        rw [cut_of_some hm] at h
        cases h
    · rintro ⟨rfl, -, hm⟩
      exact cut_of_none hm
  | cons l ls ih =>
    constructor
    · intro h
      cases hm : firstMatch? cs with
      | none =>
        rw [cut_of_none hm] at h
        cases h
      | some m =>
        obtain ⟨k, n⟩ := m
        rw [cut_of_some hm] at h
        -- The first lexeme is the match at the front, and the others are cut off what follows.
        injection h with hlexemes hrest
        injection hlexemes with hl hls
        have hcut : cut (cs.drop n) = ⟨ls, r⟩ := by rw [← hls, ← hrest]
        obtain ⟨hdrop, hlexed, hnone⟩ := ih.1 hcut
        have hn := (firstMatch?_bounds hm).2
        have hcs : cs = l.text ++ (textOf ls ++ r) := by
          rw [← hl, ← hdrop]
          exact (List.take_append_drop n cs).symm
        have hlength : l.text.length = n := by
          rw [← hl]
          simp only [List.length_take]
          omega
        refine ⟨by rw [textOf_cons, List.append_assoc, ← hcs], ⟨?_, hlexed⟩, hnone⟩
        rw [Lexeme.isFirstMatch_iff, ← hcs, hm, hlength, ← hl]
    · rintro ⟨rfl, ⟨hl, hlexed⟩, hnone⟩
      rw [Lexeme.isFirstMatch_iff] at hl
      have htail : cut (textOf ls ++ r) = ⟨ls, r⟩ := ih.2 ⟨rfl, hlexed, hnone⟩
      rw [textOf_cons, List.append_assoc, cut_of_some hl]
      simp [htail]

/-- What is cut off a text and what is left, said by the lexemes instead of the cut. -/
theorem cut_and_iff {cs r : List Char} {P : List Lexeme → Prop} :
    (cut cs).rest = r ∧ P (cut cs).lexemes ↔
      ∃ ls, cs = textOf ls ++ r ∧ Lexed ls r ∧ firstMatch? r = none ∧ P ls := by
  constructor
  · rintro ⟨rfl, hP⟩
    have hcut : cut cs = ⟨(cut cs).lexemes, (cut cs).rest⟩ := rfl
    obtain ⟨htext, hlexed, hnone⟩ := cut_eq_iff.1 hcut
    exact ⟨_, htext, hlexed, hnone, hP⟩
  · rintro ⟨ls, htext, hlexed, hnone, hP⟩
    rw [cut_eq_iff.2 ⟨htext, hlexed, hnone⟩]
    exact ⟨rfl, hP⟩

/-- Cutting gives lexemes that are first matches before what is left. -/
theorem lexed_cut (cs : List Char) : Lexed (cut cs).lexemes (cut cs).rest :=
  (cut_eq_iff.1 (rfl : cut cs = ⟨(cut cs).lexemes, (cut cs).rest⟩)).2.1

/-! ## Lines and tokens -/

theorem lineBreaks_append (a b : List Char) :
    lineBreaks (a ++ b) = lineBreaks a + lineBreaks b := by
  simp [lineBreaks]

theorem lineAfter_eq (line : Nat) (ls : List Lexeme) :
    lineAfter line ls = line + lineBreaks (textOf ls) := by
  induction ls generalizing line with
  | nil => rfl
  | cons l ls ih => rw [lineAfter, ih, textOf_cons, lineBreaks_append, Nat.add_assoc]

/-- The token a lexeme stands for after the lexemes `before`: of the kind of its class, in
    upper case unless it is a string literal, and on the line after all line breaks so far. -/
def Lexeme.tokenAfter? (l : Lexeme) (before : List Lexeme) : Option Token :=
  l.lexClass.kind?.map fun kind =>
    ⟨kind, String.ofList (if l.lexClass = .string then l.text else l.text.map upper),
      1 + lineBreaks (textOf before)⟩

/-- The tokens lexemes stand for; blank ones stand for none. -/
def tokensOf (ls : List Lexeme) : List Token :=
  (ls.mapIdx fun i l => l.tokenAfter? (ls.take i)).reduceOption

/-- The running line of the lexer is the line after all line breaks so far. -/
theorem ofLexemes_eq (before ls : List Lexeme) :
    ofLexemes (1 + lineBreaks (textOf before)) ls =
      (ls.mapIdx fun i l => l.tokenAfter? (before ++ ls.take i)).reduceOption := by
  induction ls generalizing before with
  | nil => rfl
  | cons l ls ih =>
    have hline : 1 + lineBreaks (textOf before) + lineBreaks l.text =
        1 + lineBreaks (textOf (before ++ [l])) := by
      rw [textOf_append, lineBreaks_append, Nat.add_assoc]
      simp
    have hrest : (fun i m => Lexeme.tokenAfter? m (before ++ [l] ++ ls.take i)) =
        fun i m => Lexeme.tokenAfter? m (before ++ (l :: ls).take (i + 1)) := by
      funext i m
      rw [List.take_succ_cons, List.append_assoc, List.singleton_append]
    have hhere : l.token? (1 + lineBreaks (textOf before)) = l.tokenAfter? before := rfl
    rw [ofLexemes, hline, ih, hrest, List.mapIdx_cons, hhere, List.take_zero, List.append_nil]
    cases l.tokenAfter? before with
    | none => rw [List.reduceOption_cons_of_none]; rfl
    | some t => rw [List.reduceOption_cons_of_some]; rfl

theorem ofLexemes_one_eq (ls : List Lexeme) : ofLexemes 1 ls = tokensOf ls := by
  have h := ofLexemes_eq [] ls
  simp only [List.nil_append] at h
  exact h

/-- The tokens of a text that is cut to its end. -/
theorem tokenize_eq_ok_iff {sql : String} {ts : List Token} :
    tokenize sql = .ok ts ↔
      (cut sql.toList).rest = [] ∧ ts = tokensOf (cut sql.toList).lexemes := by
  rw [tokenize, ofChars]
  cases h : (cut sql.toList).rest with
  | nil => simp [ofLexemes_one_eq, eq_comm]
  | cons c r => simp

/-- The error of a text that is not cut to its end. -/
theorem tokenize_eq_error_iff {sql : String} {character : Char} {line : Nat} :
    tokenize sql = .error ⟨character, line⟩ ↔
      ∃ r, (cut sql.toList).rest = character :: r ∧
        line = 1 + lineBreaks (textOf (cut sql.toList).lexemes) := by
  rw [tokenize, ofChars, lineAfter_eq]
  cases h : (cut sql.toList).rest with
  | nil => simp
  | cons c r => simp [eq_comm]

/-- Tokenizing loses nothing and its errors are exact. A text has tokens exactly if it is a
    sequence of lexemes, each the match of the first class that matches at its place, and
    the tokens are then those the lexemes stand for. It has an error exactly if such a
    sequence ends before a character at which no class matches, and the error is that
    character, on the line after all line breaks before it. -/
theorem tokenize_exact (sql : String) :
    (∀ ts, tokenize sql = .ok ts ↔
      ∃ ls, sql.toList = textOf ls ∧ Lexed ls [] ∧ ts = tokensOf ls) ∧
    (∀ character line, tokenize sql = .error ⟨character, line⟩ ↔
      ∃ ls r, sql.toList = textOf ls ++ character :: r ∧ Lexed ls (character :: r) ∧
        (∀ k : LexClass, k.pattern.matched? (character :: r) = none) ∧
        line = 1 + lineBreaks (textOf ls)) := by
  constructor
  · intro ts
    rw [tokenize_eq_ok_iff, cut_and_iff (P := fun ls => ts = tokensOf ls)]
    -- At the end of the text no class matches, so nothing is asked of the rest.
    simp only [List.append_nil, firstMatch?_nil, true_and]
  · intro character line
    have hcut : ∀ r, (cut sql.toList).rest = character :: r ∧
        line = 1 + lineBreaks (textOf (cut sql.toList).lexemes) ↔ _ := fun r =>
      cut_and_iff (P := fun ls => line = 1 + lineBreaks (textOf ls))
    rw [tokenize_eq_error_iff]
    constructor
    · rintro ⟨r, hrest⟩
      obtain ⟨ls, htext, hlexed, hnone, hline⟩ := (hcut r).1 hrest
      exact ⟨ls, r, htext, hlexed, firstMatch?_eq_none_iff.1 hnone, hline⟩
    · rintro ⟨ls, r, htext, hlexed, hnone, hline⟩
      refine ⟨r, (hcut r).2 ⟨ls, htext, hlexed, ?_, hline⟩⟩
      exact firstMatch?_eq_none_iff.2 hnone

end QueryLint.Token

/-
  QueryLint.Proofs.Scan

  Scans of raw query text: what a scan knows after two texts in turn, and where the
  parentheses it sees stand. Each one stands in the text at the octet offset it is
  recorded with (`mem_seen`), and the offsets increase (`seen_sorted`).
-/
import QueryLint.Paren.Scan
import QueryLint.Text.Utf8
import Mathlib.Data.List.Basic

namespace QueryLint.Paren

open QueryLint.Text

/-! ## The scan after a text -/

@[simp] theorem Scan.after_nil (s : Scan) : s.after [] = s := rfl

@[simp] theorem Scan.after_cons (s : Scan) (c : Char) (cs : List Char) :
    s.after (c :: cs) = (s.step c).after cs := rfl

@[simp] theorem Scan.after_append (s : Scan) (a b : List Char) :
    s.after (a ++ b) = (s.after a).after b := by
  simp [Scan.after]

/-- The character before a scan is the last one it read. -/
theorem Scan.after_previous (s : Scan) (cs : List Char) :
    (s.after cs).previous = cs.getLast?.or s.previous := by
  rcases List.eq_nil_or_concat cs with rfl | ⟨front, c, rfl⟩
  · rfl
  · simp [Scan.step]

/-- Only quotes lead into strings or out of them. -/
theorem Scan.after_inString_of_no_quote {cs : List Char} (h : ∀ c ∈ cs, c ≠ '\'') (s : Scan) :
    (s.after cs).inString = s.inString := by
  induction cs generalizing s with
  | nil => rfl
  | cons c cs ih =>
    have hc : s.isDelimiter c = false := by
      simp [Scan.isDelimiter, h c List.mem_cons_self]
    rw [Scan.after_cons, ih fun d hd => h d (List.mem_cons_of_mem _ hd)]
    simp [Scan.step, hc]

/-! ## What a scan sees -/

@[simp] theorem seenFrom_nil (s : Scan) (i : Nat) : seenFrom s i [] = [] := rfl

theorem seenFrom_cons (s : Scan) (i : Nat) (c : Char) (cs : List Char) :
    seenFrom s i (c :: cs) =
      (if s.sees c then (Side.ofChar? c).map (Seen.mk · i) else none).toList ++
        seenFrom (s.step c) (i + c.utf8Size) cs := rfl

theorem seenFrom_append (s : Scan) (i : Nat) (a b : List Char) :
    seenFrom s i (a ++ b) = seenFrom s i a ++ seenFrom (s.after a) (i + utf8Size a) b := by
  induction a generalizing s i with
  | nil => rfl
  | cons c a ih =>
    rw [List.cons_append, seenFrom_cons, ih, seenFrom_cons, List.append_assoc, Scan.after_cons,
      utf8Size_cons, Nat.add_assoc]

/-- A text without parentheses shows none. -/
theorem seenFrom_of_no_paren {cs : List Char} (h : ∀ c ∈ cs, Side.ofChar? c = none) (s : Scan)
    (i : Nat) : seenFrom s i cs = [] := by
  induction cs generalizing s i with
  | nil => rfl
  | cons c cs ih =>
    rw [seenFrom_cons, ih fun d hd => h d (List.mem_cons_of_mem _ hd), h c List.mem_cons_self]
    simp

/-! ## Where the parentheses stand -/

/-- The character of a parenthesis. -/
def Side.char : Side → Char
  | opening => '('
  | closing => ')'

theorem Side.ofChar?_eq_some_iff {c : Char} {side : Side} :
    Side.ofChar? c = some side ↔ c = side.char := by
  unfold Side.ofChar?
  constructor
  · intro h
    split at h
    · rename_i hc
      cases h
      exact hc
    · split at h
      · rename_i hc
        cases h
        exact hc
      · cases h
  · rintro rfl
    cases side <;> rfl

/-- A parenthesis is no quote, so a scan sees it exactly if it is not in a string. -/
theorem Scan.sees_char (s : Scan) (side : Side) : s.sees side.char = !s.inString := by
  cases side <;> simp [Scan.sees, Scan.isDelimiter, Side.char]

/-- What is seen are the parentheses that a scan reaches outside strings, at their offsets. -/
theorem mem_seenFrom_iff {s : Scan} {i : Nat} {cs : List Char} {p : Seen} :
    p ∈ seenFrom s i cs ↔ ∃ before after, cs = before ++ p.side.char :: after ∧
      i + utf8Size before = p.offset ∧ (s.after before).inString = false := by
  constructor
  · intro h
    induction cs generalizing s i with
    | nil => cases h
    | cons c cs ih =>
      rw [seenFrom_cons] at h
      rcases List.mem_append.1 h with h | h
      · rw [Option.mem_toList] at h
        split at h
        · rename_i hsees
          obtain ⟨side, hside, rfl⟩ := Option.map_eq_some_iff.1 h
          rw [Side.ofChar?_eq_some_iff] at hside
          subst hside
          rw [Scan.sees_char, Bool.not_eq_true'] at hsees
          exact ⟨[], cs, rfl, rfl, hsees⟩
        · cases h
      · obtain ⟨before, after, rfl, hoffset, hout⟩ := ih h
        refine ⟨c :: before, after, rfl, ?_, hout⟩
        rw [← hoffset, utf8Size_cons, Nat.add_assoc]
  · rintro ⟨before, after, rfl, hoffset, hout⟩
    have hhere : Side.ofChar? p.side.char = some p.side := Side.ofChar?_eq_some_iff.2 rfl
    rw [seenFrom_append, hoffset, seenFrom_cons, Scan.sees_char, hout, hhere]
    simp

/-- A parenthesis that is seen stands in the text at its offset. -/
theorem mem_seenFrom {s : Scan} {i : Nat} {cs : List Char} {p : Seen} (h : p ∈ seenFrom s i cs) :
    ∃ a b, cs = a ++ p.side.char :: b ∧ p.offset = i + utf8Size a := by
  obtain ⟨a, b, htext, hoffset, -⟩ := mem_seenFrom_iff.1 h
  exact ⟨a, b, htext, hoffset.symm⟩

theorem mem_seen {cs : List Char} {p : Seen} (h : p ∈ seen cs) :
    ∃ a b, cs = a ++ p.side.char :: b ∧ p.offset = utf8Size a := by
  obtain ⟨a, b, htext, hoffset⟩ := mem_seenFrom h
  exact ⟨a, b, htext, by rw [hoffset, Nat.zero_add]⟩

/-- Parentheses are seen from left to right. -/
theorem seenFrom_sorted (s : Scan) (i : Nat) (cs : List Char) :
    (seenFrom s i cs).Pairwise fun p q => p.offset < q.offset := by
  induction cs generalizing s i with
  | nil => exact List.Pairwise.nil
  | cons c cs ih =>
    rw [seenFrom_cons, List.pairwise_append]
    refine ⟨?_, ih _ _, ?_⟩
    · split
      · cases Side.ofChar? c <;> simp
      · simp
    · intro p hp q hq
      have hpi : p.offset = i := by
        rw [Option.mem_toList] at hp
        split at hp
        · obtain ⟨side, -, rfl⟩ := Option.map_eq_some_iff.1 hp
          rfl
        · cases hp
      obtain ⟨a, -, -, hq⟩ := mem_seenFrom hq
      have := c.utf8Size_pos
      omega

theorem seen_sorted (cs : List Char) : (seen cs).Pairwise fun p q => p.offset < q.offset :=
  seenFrom_sorted .start 0 cs

end QueryLint.Paren

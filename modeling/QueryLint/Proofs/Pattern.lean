/-
  QueryLint.Proofs.Pattern

  Patterns: regular expressions over characters, with the preferences of a
  backtracking matcher. A match that begins at a spot of a text may stop at several
  spots. `Pattern.stops` lists them, the preferred one first, and the match is the
  head of that list.

  Of two alternatives the first is preferred, and a repetition is preferred longer.
  A later part of the pattern can still turn the preferred stop of an earlier part
  down, which is why all stops are listed and not only the first.

  The lemmas say what the stops of the usual shapes are: of a word spelled letter by
  letter (`chain_stops`), of a list of alternatives (`anyOf_stops`) and of a run of
  one class of characters (`oneOrMore_flatMap`).
-/
import QueryLint.Text.Word
import Mathlib.Data.List.Basic

namespace QueryLint.Text

/-! ## Spots -/

/-- A spot in a text: what stands before it, last character first, and what follows. -/
structure Spot where
  read : List Char
  rest : List Char
  deriving DecidableEq, Repr

namespace Spot

/-- The spot before a text. -/
def front (cs : List Char) : Spot :=
  ⟨[], cs⟩

/-- The spot `n` characters further on. -/
def skip (s : Spot) (n : Nat) : Spot :=
  ⟨(s.rest.take n).reverse ++ s.read, s.rest.drop n⟩

/-- Whether exactly one of the two characters around a spot is a word character. The ends
    of the text count as other characters. -/
def atBoundary (s : Spot) : Bool :=
  s.read.head?.any isWord != s.rest.head?.any isWord

@[simp] theorem front_rest (cs : List Char) : (front cs).rest = cs := rfl

@[simp] theorem skip_zero (s : Spot) : s.skip 0 = s := rfl

@[simp] theorem skip_rest (s : Spot) (n : Nat) : (s.skip n).rest = s.rest.drop n := rfl

@[simp] theorem skip_skip (s : Spot) (m n : Nat) : (s.skip m).skip n = s.skip (m + n) := by
  simp only [skip, List.take_add, List.reverse_append, List.append_assoc, List.drop_drop]

theorem skip_succ_cons (r : List Char) (c : Char) (cs : List Char) (n : Nat) :
    (Spot.mk r (c :: cs)).skip (n + 1) = (Spot.mk (c :: r) cs).skip n := by
  simp [skip]

/-- What is read on the way from the front of a text. -/
theorem skip_front_read (cs : List Char) (n : Nat) :
    ((front cs).skip n).read.reverse = cs.take n := by
  simp [skip, front]

end Spot

/-! ## Patterns and where they stop -/

/-- Regular expressions with word boundaries. -/
inductive Pattern where
  | nothing
  | one (p : Char → Bool)
  | boundary
  | seq (first second : Pattern)
  | alt (preferred other : Pattern)
  | many (p : Pattern)

/-- The stops of at most `n` repetitions of a step, more repetitions preferred. -/
def repeated (step : Spot → List Spot) : Nat → Spot → List Spot
  | 0, s => [s]
  | n + 1, s => (step s).flatMap (repeated step n) ++ [s]

namespace Pattern

/-- The spots at which a match that begins at a spot may stop, the preferred one first.
    A repetition takes a character each time, so the text left bounds their number. -/
def stops : Pattern → Spot → List Spot
  | nothing, s => [s]
  | one p, s => if s.rest.head?.any p then [s.skip 1] else []
  | boundary, s => if s.atBoundary then [s] else []
  | seq a b, s => (a.stops s).flatMap b.stops
  | alt a b, s => a.stops s ++ b.stops s
  | many a, s => repeated a.stops s.rest.length s

/-- What a pattern matches at the beginning of a text, if it does. -/
def matched? (p : Pattern) (cs : List Char) : Option (List Char) :=
  (p.stops (.front cs)).head?.map fun s => s.read.reverse

/-- One or more times. -/
def oneOrMore (p : Pattern) : Pattern :=
  seq p (many p)

/-- Once, or not at all. -/
def optional (p : Pattern) : Pattern :=
  alt p nothing

/-- One character after another, each of its own class. -/
def chain : List (Char → Bool) → Pattern
  | [] => nothing
  | p :: ps => seq (one p) (chain ps)

/-- The first of several patterns that leads to a match. -/
def anyOf : List Pattern → Pattern
  | [] => one fun _ => false
  | p :: ps => alt p (anyOf ps)

@[simp] theorem stops_nothing (s : Spot) : nothing.stops s = [s] := rfl

theorem stops_one (p : Char → Bool) (s : Spot) :
    (one p).stops s = if s.rest.head?.any p then [s.skip 1] else [] := rfl

@[simp] theorem stops_one_nil (p : Char → Bool) (r : List Char) : (one p).stops ⟨r, []⟩ = [] := rfl

@[simp] theorem stops_one_cons (p : Char → Bool) (r : List Char) (c : Char) (cs : List Char) :
    (one p).stops ⟨r, c :: cs⟩ = if p c then [⟨c :: r, cs⟩] else [] := rfl

theorem stops_boundary (s : Spot) : boundary.stops s = if s.atBoundary then [s] else [] := rfl

@[simp] theorem stops_seq (a b : Pattern) (s : Spot) :
    (seq a b).stops s = (a.stops s).flatMap b.stops := rfl

@[simp] theorem stops_alt (a b : Pattern) (s : Spot) :
    (alt a b).stops s = a.stops s ++ b.stops s := rfl

/-! ## Repetition -/

/-- Every match of the pattern takes at least one character. -/
def Advances (p : Pattern) : Prop :=
  ∀ s, ∀ t ∈ p.stops s, t.rest.length < s.rest.length

/-- A bound on the repetitions that the text left does not exceed changes nothing. -/
theorem repeated_bound {a : Pattern} (ha : a.Advances) :
    ∀ (m n : Nat) (s : Spot), s.rest.length ≤ m → s.rest.length ≤ n →
      repeated a.stops m s = repeated a.stops n s := by
  -- Where no text is left there is no step, so a bound of 0 is as good as any.
  have hstuck : ∀ s : Spot, s.rest.length = 0 → a.stops s = [] := by
    intro s hs
    apply List.eq_nil_iff_forall_not_mem.2
    intro t ht
    have := ha s t ht
    omega
  intro m
  induction m with
  | zero =>
    intro n s hm _
    cases n with
    | zero => rfl
    | succ n => simp [repeated, hstuck s (by omega)]
  | succ m ih =>
    intro n s hm hn
    cases n with
    | zero => simp [repeated, hstuck s (by omega)]
    | succ n =>
      simp only [repeated]
      congr 1
      apply List.flatMap_congr
      intro t ht
      -- A step leaves less text, so both bounds may go down with it.
      have := ha s t ht
      exact ih n t (by omega) (by omega)

/-- A repetition goes through its pattern once and on from there, or stops at once. -/
theorem stops_many {a : Pattern} (ha : a.Advances) (s : Spot) :
    (many a).stops s = (a.stops s).flatMap (many a).stops ++ [s] := by
  -- The bound is raised by one to make room for the step that is taken out.
  have hmore : repeated a.stops s.rest.length s = repeated a.stops (s.rest.length + 1) s :=
    repeated_bound ha _ _ s (Nat.le_refl _) (Nat.le_succ _)
  rw [stops, hmore, repeated]
  congr 1
  apply List.flatMap_congr
  intro t ht
  have := ha s t ht
  exact repeated_bound ha _ _ t (by omega) (Nat.le_refl _)

theorem one_advances (p : Char → Bool) : (one p).Advances := by
  intro s t ht
  rw [stops_one] at ht
  split at ht
  · rename_i hp
    rw [List.mem_singleton] at ht
    have hne : s.rest ≠ [] := by
      intro h
      simp [h] at hp
    have := List.length_pos_iff.2 hne
    rw [ht, Spot.skip_rest, List.length_drop]
    omega
  · simp at ht

theorem seq_advances {a b : Pattern} (ha : a.Advances) (hb : b.Advances) : (seq a b).Advances := by
  intro s t ht
  obtain ⟨u, hu, htu⟩ := List.mem_flatMap.1 ht
  have h1 := ha s u hu
  have h2 := hb u t htu
  omega

theorem alt_advances {a b : Pattern} (ha : a.Advances) (hb : b.Advances) : (alt a b).Advances := by
  intro s t ht
  rcases List.mem_append.1 ht with h | h
  · exact ha s t h
  · exact hb s t h

/-- A run of one class of characters, followed by something that fails wherever the run
    could go on, is followed by it at the end of the run only. -/
theorem many_one_flatMap {p : Char → Bool} {next : Spot → List Spot}
    (hnext : ∀ d r c cs, p d = true → p c = true → next ⟨d :: r, c :: cs⟩ = [])
    {d : Char} (hd : p d = true) (r cs : List Char) :
    ((many (one p)).stops ⟨d :: r, cs⟩).flatMap next =
      next ((Spot.mk (d :: r) cs).skip (cs.takeWhile p).length) := by
  induction cs generalizing d r with
  | nil => simp [stops_many (one_advances p)]
  | cons c cs ih =>
    rw [stops_many (one_advances p), stops_one_cons]
    by_cases hc : p c = true
    · -- The run can go on, so what follows turns this stop down.
      rw [if_pos hc, List.flatMap_singleton, List.flatMap_append, ih hc, List.flatMap_singleton,
        hnext d r c cs hd hc, List.append_nil, List.takeWhile_cons_of_pos hc, List.length_cons,
        Spot.skip_succ_cons]
    · rw [if_neg hc, List.takeWhile_cons_of_neg hc]
      simp

/-- The same for a run that must not be empty. -/
theorem oneOrMore_flatMap {p : Char → Bool} {next : Spot → List Spot}
    (hnext : ∀ d r c cs, p d = true → p c = true → next ⟨d :: r, c :: cs⟩ = []) (s : Spot) :
    ((oneOrMore (one p)).stops s).flatMap next =
      if (s.rest.takeWhile p).length = 0 then []
      else next (s.skip (s.rest.takeWhile p).length) := by
  obtain ⟨r, cs⟩ := s
  cases cs with
  | nil => simp [oneOrMore]
  | cons c cs =>
    rw [oneOrMore, stops_seq, stops_one_cons]
    by_cases hc : p c = true
    · rw [if_pos hc, List.flatMap_singleton, many_one_flatMap hnext hc,
        List.takeWhile_cons_of_pos hc, List.length_cons, Spot.skip_succ_cons,
        if_neg (Nat.succ_ne_zero _)]
    · rw [if_neg hc, List.takeWhile_cons_of_neg hc]
      simp

/-- The preferred stop of a run of one class of characters is its end. -/
theorem many_one_head? (p : Char → Bool) (s : Spot) :
    ((many (one p)).stops s).head? = some (s.skip (s.rest.takeWhile p).length) := by
  obtain ⟨r, cs⟩ := s
  induction cs generalizing r with
  | nil => simp [stops_many (one_advances p)]
  | cons c cs ih =>
    rw [stops_many (one_advances p), stops_one_cons]
    by_cases hc : p c = true
    · rw [if_pos hc, List.flatMap_singleton, List.head?_append, ih, Option.some_or,
        List.takeWhile_cons_of_pos hc, List.length_cons, Spot.skip_succ_cons]
    · rw [if_neg hc, List.takeWhile_cons_of_neg hc]
      simp

/-! ## Words and alternatives -/

/-- Whether a text begins with one character of each class in turn. -/
def fits : List (Char → Bool) → List Char → Bool
  | [], _ => true
  | _ :: _, [] => false
  | p :: ps, c :: cs => p c && fits ps cs

theorem chain_stops (ps : List (Char → Bool)) (s : Spot) :
    (chain ps).stops s = if fits ps s.rest then [s.skip ps.length] else [] := by
  obtain ⟨r, cs⟩ := s
  induction ps generalizing r cs with
  | nil => simp [chain, fits]
  | cons p ps ih =>
    cases cs with
    | nil => simp [chain, fits]
    | cons c cs =>
      rw [chain, stops_seq, stops_one_cons]
      by_cases hc : p c = true
      · rw [if_pos hc, List.flatMap_singleton, ih, List.length_cons, fits, hc, Bool.true_and,
          Spot.skip_succ_cons]
      · rw [if_neg hc, fits, Bool.eq_false_iff.2 hc]
        simp

theorem anyOf_stops (ps : List Pattern) (s : Spot) :
    (anyOf ps).stops s = ps.flatMap fun p => p.stops s := by
  induction ps with
  | nil =>
    rw [anyOf, stops_one]
    cases s.rest <;> simp
  | cons p ps ih => rw [anyOf, stops_alt, ih, List.flatMap_cons]

end Pattern

end QueryLint.Text

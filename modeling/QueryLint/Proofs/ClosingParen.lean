/-
  QueryLint.Proofs.ClosingParen

  The parenthesis that closes another, said without a counter: between the two stands a
  balanced sequence of tokens (`Balanced`). `closingParen?_eq_some_iff` says that the search
  with a counter finds this parenthesis and no other.

  The search runs over a balanced sequence without a trace (`closeAhead?_append`), which is the
  one half. For the other, what is searched before `depth` open parentheses are closed falls
  into balanced sequences with a closing parenthesis between any two (`Unwinds`).
-/
import QueryLint.Grammar.Clause

namespace QueryLint.Clause

/-- The token at index `i` has this text. -/
def TextAt (ts : List Token) (i : Nat) (text : String) : Prop :=
  ∃ t, ts[i]? = some t ∧ t.text = text

/-- A sequence of tokens in which every parenthesis has its partner. -/
inductive Balanced : List Token → Prop
  | nil : Balanced []
  | other {t : Token} {ts : List Token} :
    t.text ≠ "(" → t.text ≠ ")" → Balanced ts → Balanced (t :: ts)
  | group {o c : Token} {inner ts : List Token} :
    o.text = "(" → c.text = ")" → Balanced inner → Balanced ts →
      Balanced (o :: (inner ++ c :: ts))

/-- The `(` at index `i` is closed by the `)` at index `j`. -/
def Closes (ts : List Token) (i j : Nat) : Prop :=
  ∃ before o inner c after, ts = before ++ o :: (inner ++ c :: after) ∧
    before.length = i ∧ i + inner.length + 1 = j ∧ o.text = "(" ∧ c.text = ")" ∧ Balanced inner

theorem Balanced.append {a b : List Token} (ha : Balanced a) (hb : Balanced b) :
    Balanced (a ++ b) := by
  induction ha with
  | nil => exact hb
  | other hopen hclose _ ih => exact .other hopen hclose ih
  | group ho hc hinner _ _ ih =>
    rw [List.cons_append, List.append_assoc, List.cons_append]
    exact .group ho hc hinner ih

/-! ## One token of the search -/

theorem closeAhead?_open {t : Token} (ht : t.text = "(") (depth : Nat) (ts : List Token) :
    closeAhead? depth (t :: ts) = (closeAhead? (depth + 1) ts).map (· + 1) := by
  rw [closeAhead?, if_pos (Token.is_iff.2 ht)]

theorem closeAhead?_close {t : Token} (ht : t.text = ")") (depth : Nat) (ts : List Token) :
    closeAhead? depth (t :: ts) =
      if depth - 1 = 0 then some 0 else (closeAhead? (depth - 1) ts).map (· + 1) := by
  have hopen : ¬ t.is "(" = true := by
    rw [Token.is_iff, ht]
    decide
  rw [closeAhead?, if_neg hopen, if_pos (Token.is_iff.2 ht)]

theorem closeAhead?_other {t : Token} (hopen : t.text ≠ "(") (hclose : t.text ≠ ")")
    (depth : Nat) (ts : List Token) :
    closeAhead? depth (t :: ts) = (closeAhead? depth ts).map (· + 1) := by
  rw [closeAhead?, if_neg (mt Token.is_iff.1 hopen), if_neg (mt Token.is_iff.1 hclose)]

/-! ## The search -/

/-- With a parenthesis open, the search passes over a balanced sequence. -/
theorem closeAhead?_append {inner : List Token} (h : Balanced inner) (depth : Nat)
    (ts : List Token) :
    closeAhead? (depth + 1) (inner ++ ts) =
      (closeAhead? (depth + 1) ts).map (· + inner.length) := by
  induction h generalizing depth ts with
  | nil => simp
  | other hopen hclose _ ih =>
    rw [List.cons_append, closeAhead?_other hopen hclose, ih, Option.map_map]
    rfl
  | @group o c inner rest ho hc _ _ ihInner ihRest =>
    -- The group opens one more level, and its own `)` is not the one looked for.
    have hclosed : closeAhead? (depth + 2) (c :: (rest ++ ts)) =
        (closeAhead? (depth + 1) (rest ++ ts)).map (· + 1) := by
      rw [closeAhead?_close hc]
      rfl
    rw [List.cons_append, List.append_assoc, List.cons_append, closeAhead?_open ho, ihInner,
      hclosed, ihRest, Option.map_map, Option.map_map, Option.map_map]
    congr 1
    funext n
    simp only [Function.comp_apply, List.length_cons, List.length_append]
    omega

/-- A sequence that closes `depth` open parentheses, and all that it opens itself. -/
def Unwinds : Nat → List Token → Prop
  | 0, ts => Balanced ts
  | depth + 1, ts =>
    ∃ inner c rest, ts = inner ++ c :: rest ∧ c.text = ")" ∧ Balanced inner ∧ Unwinds depth rest

theorem Unwinds.append {depth : Nat} {a ts : List Token} (ha : Balanced a)
    (h : Unwinds depth ts) : Unwinds depth (a ++ ts) := by
  cases depth with
  | zero => exact ha.append h
  | succ depth =>
    obtain ⟨inner, c, rest, rfl, hc, hinner, hrest⟩ := h
    exact ⟨a ++ inner, c, rest, (List.append_assoc _ _ _).symm, hc, ha.append hinner, hrest⟩

/-- What the search finds is a `)` behind a sequence that closes all other open ones. -/
theorem unwinds_of_closeAhead? {depth n : Nat} {ts : List Token}
    (h : closeAhead? (depth + 1) ts = some n) :
    ∃ body c after, ts = body ++ c :: after ∧ body.length = n ∧ c.text = ")" ∧
      Unwinds depth body := by
  induction ts generalizing depth n with
  | nil => cases h
  | cons t ts ih =>
    by_cases hopen : t.text = "("
    · rw [closeAhead?_open hopen] at h
      obtain ⟨m, hm, rfl⟩ := Option.map_eq_some_iff.1 h
      obtain ⟨body, c, after, rfl, rfl, hc, inner, d, rest, rfl, hd, hinner, hrest⟩ := ih hm
      -- The new `(` takes the first `)` for its partner, and the group joins what follows.
      refine ⟨t :: (inner ++ d :: rest), c, after, rfl, rfl, hc, ?_⟩
      have hgroup := hrest.append (.group hopen hd hinner .nil)
      rwa [List.cons_append, List.append_assoc, List.singleton_append] at hgroup
    · by_cases hclose : t.text = ")"
      · rw [closeAhead?_close hclose, Nat.add_sub_cancel] at h
        cases depth with
        | zero =>
          cases h
          exact ⟨[], t, ts, rfl, rfl, hclose, .nil⟩
        | succ depth =>
          obtain ⟨m, hm, rfl⟩ := Option.map_eq_some_iff.1 h
          obtain ⟨body, c, after, rfl, rfl, hc, hbody⟩ := ih hm
          exact ⟨t :: body, c, after, rfl, rfl, hc, [], t, body, rfl, hclose, .nil, hbody⟩
      · rw [closeAhead?_other hopen hclose] at h
        obtain ⟨m, hm, rfl⟩ := Option.map_eq_some_iff.1 h
        obtain ⟨body, c, after, rfl, rfl, hc, hbody⟩ := ih hm
        exact ⟨t :: body, c, after, rfl, rfl, hc, hbody.append (.other hopen hclose .nil)⟩

/-- From a `(`, the search finds the `)` that closes it and nothing else. -/
theorem closingParen?_eq_some_iff {ts : List Token} {i j : Nat}
    (hopen : TextAt ts i "(") :
    closingParen? ts i = some j ↔ Closes ts i j := by
  constructor
  · intro h
    obtain ⟨o, ho, hotext⟩ := hopen
    obtain ⟨hi, rfl⟩ := List.getElem?_eq_some_iff.1 ho
    obtain ⟨n, hn, rfl⟩ := Option.map_eq_some_iff.1 h
    rw [List.drop_eq_getElem_cons hi, closeAhead?_open hotext] at hn
    obtain ⟨m, hm, rfl⟩ := Option.map_eq_some_iff.1 hn
    obtain ⟨inner, c, after, hdrop, rfl, hc, hinner⟩ := unwinds_of_closeAhead? hm
    refine ⟨ts.take i, ts[i], inner, c, after, ?_, ?_, ?_, hotext, hc, hinner⟩
    · rw [← hdrop, ← List.drop_eq_getElem_cons hi, List.take_append_drop]
    · rw [List.length_take]
      omega
    · omega
  · rintro ⟨before, o, inner, c, after, rfl, rfl, rfl, ho, hc, hinner⟩
    rw [closingParen?, List.drop_left, closeAhead?_open ho, closeAhead?_append hinner,
      closeAhead?_close hc, if_pos rfl]
    simp only [Option.map_some, Option.some.injEq]
    omega

/-- The search finds something exactly if the `(` is closed. -/
theorem isSome_closingParen?_iff {ts : List Token} {i : Nat}
    (hopen : TextAt ts i "(") :
    (closingParen? ts i).isSome = true ↔ ∃ j, Closes ts i j := by
  rw [Option.isSome_iff_exists]
  exact exists_congr fun j => closingParen?_eq_some_iff hopen

end QueryLint.Clause

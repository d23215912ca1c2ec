/-
  QueryLint.Proofs.ParenSearch

  What the search for a closing parenthesis computes, said by counts. From a `(`, it finds the
  first index up to which there are as many `)` as `(`, if there is one.

  A search with some parentheses open ends at the first token that settles them
  (`closeAhead?_eq_some_iff`), which is an induction along the search. The counter is taken down
  only while a parenthesis is open, so a counter that breaks down below zero never does
  (`closingChecked_eq`). The checks of `INSERT` and `CREATE TABLE` ask for the partner of a `(`
  only: what holds of a search there holds of the checks, whatever it does elsewhere
  (`insertAsking_kept`, `ddlAsking_kept`).
-/
import QueryLint.Grammar.Check
import QueryLint.Paren.Group
import QueryLint.Proofs.ClauseGrammar
import Mathlib.Order.Bounds.Basic
import Mathlib.Order.Nat

namespace QueryLint.Clause

/-! ## Counts -/

/-- How many tokens have this text. -/
def countOf (text : String) (ts : List Token) : Nat :=
  ts.countP (·.is text)

/-- From index `i` to index `j`, both included, there are as many `(` as `)`. -/
def LevelFrom (ts : List Token) (i j : Nat) : Prop :=
  i < j ∧ j < ts.length ∧
    countOf "(" ((ts.take (j + 1)).drop i) = countOf ")" ((ts.take (j + 1)).drop i)

/-- With `depth` parentheses open before it, the sequence has as many `)` as were opened, up to
    the token at index `n`. -/
def Settles (depth : Nat) (ts : List Token) (n : Nat) : Prop :=
  n < ts.length ∧ depth + countOf "(" (ts.take (n + 1)) = countOf ")" (ts.take (n + 1))

theorem countOf_cons (text : String) (t : Token) (ts : List Token) :
    countOf text (t :: ts) = countOf text ts + if t.text = text then 1 else 0 := by
  simp only [countOf, List.countP_cons, Token.is_iff]

theorem settles_cons_zero {depth : Nat} {t : Token} {ts : List Token} :
    Settles depth (t :: ts) 0 ↔
      depth + (if t.text = "(" then 1 else 0) = if t.text = ")" then 1 else 0 := by
  rw [Settles, List.take_succ_cons, List.take_zero, countOf_cons, countOf_cons]
  simp [countOf]

theorem settles_cons_succ {depth n : Nat} {t : Token} {ts : List Token} :
    Settles depth (t :: ts) (n + 1) ↔ n < ts.length ∧
      depth + (countOf "(" (ts.take (n + 1)) + if t.text = "(" then 1 else 0) =
        countOf ")" (ts.take (n + 1)) + if t.text = ")" then 1 else 0 := by
  rw [Settles, List.take_succ_cons, countOf_cons, countOf_cons, List.length_cons,
    Nat.succ_lt_succ_iff]

/-! ## The first token that settles -/

/-- The least number of a property that 0 lacks, found one further down. -/
theorem map_succ_eq_some_iff {P Q : Nat → Prop} {found : Option Nat} (hzero : ¬ P 0)
    (hsucc : ∀ n, P (n + 1) ↔ Q n) (hfound : ∀ n, found = some n ↔ IsLeast {n | Q n} n)
    (n : Nat) : found.map (· + 1) = some n ↔ IsLeast {n | P n} n := by
  rw [Option.map_eq_some_iff]
  constructor
  · rintro ⟨m, hm, rfl⟩
    obtain ⟨hQ, hleast⟩ := (hfound m).1 hm
    refine ⟨(hsucc m).2 hQ, ?_⟩
    intro k hk
    cases k with
    | zero => exact absurd hk hzero
    | succ k => exact Nat.succ_le_succ (hleast ((hsucc k).1 hk))
  · rintro ⟨hP, hleast⟩
    cases n with
    | zero => exact absurd hP hzero
    | succ m =>
      refine ⟨m, (hfound m).2 ⟨(hsucc m).1 hP, ?_⟩, rfl⟩
      intro k hk
      exact Nat.le_of_succ_le_succ (hleast ((hsucc k).2 hk))

/-- With parentheses open, the search ends at the first token that settles them. -/
theorem closeAhead?_eq_some_iff {depth : Nat} {ts : List Token} (n : Nat) :
    closeAhead? (depth + 1) ts = some n ↔ IsLeast {n | Settles (depth + 1) ts n} n := by
  induction ts generalizing depth n with
  | nil =>
    refine iff_of_false (by simp [closeAhead?]) ?_
    rintro ⟨⟨hlength, -⟩, -⟩
    exact Nat.not_lt_zero n hlength
  | cons t ts ih =>
    by_cases hopen : t.text = "("
    · have hclose : t.text ≠ ")" := by
        rw [hopen]
        decide
      have hzero : ¬ Settles (depth + 1) (t :: ts) 0 := by
        rw [settles_cons_zero, if_pos hopen, if_neg hclose]
        omega
      have hsucc : ∀ m, Settles (depth + 1) (t :: ts) (m + 1) ↔ Settles (depth + 2) ts m := by
        intro m
        rw [settles_cons_succ, if_pos hopen, if_neg hclose, Settles]
        omega
      rw [closeAhead?_open hopen]
      exact map_succ_eq_some_iff hzero hsucc (fun m => ih m) n
    · by_cases hclose : t.text = ")"
      · have hzero : Settles (depth + 1) (t :: ts) 0 ↔ depth = 0 := by
          rw [settles_cons_zero, if_neg hopen, if_pos hclose]
          omega
        have hsucc : ∀ m, Settles (depth + 1) (t :: ts) (m + 1) ↔ Settles depth ts m := by
          intro m
          rw [settles_cons_succ, if_neg hopen, if_pos hclose, Settles]
          omega
        rw [closeAhead?_close hclose, Nat.add_sub_cancel]
        cases depth with
        | zero =>
          -- The last one open is closed here, and nothing comes before index 0.
          have hleast : IsLeast {n | Settles (0 + 1) (t :: ts) n} 0 :=
            ⟨hzero.2 rfl, fun k _ => Nat.zero_le k⟩
          rw [if_pos rfl, Option.some.injEq]
          exact ⟨fun h => h ▸ hleast, hleast.unique⟩
        | succ depth =>
          rw [if_neg (Nat.succ_ne_zero depth)]
          exact map_succ_eq_some_iff (mt hzero.1 (Nat.succ_ne_zero depth)) hsucc (fun m => ih m) n
      · have hzero : ¬ Settles (depth + 1) (t :: ts) 0 := by
          rw [settles_cons_zero, if_neg hopen, if_neg hclose]
          omega
        have hsucc : ∀ m, Settles (depth + 1) (t :: ts) (m + 1) ↔ Settles (depth + 1) ts m := by
          intro m
          rw [settles_cons_succ, if_neg hopen, if_neg hclose, Settles]
          omega
        rw [closeAhead?_other hopen hclose]
        exact map_succ_eq_some_iff hzero hsucc (fun m => ih m) n

/-- From a `(`, the tokens behind it settle where they are level with it. -/
theorem levelFrom_iff {ts : List Token} {i : Nat} (hopen : TextAt ts i "(") (n : Nat) :
    LevelFrom ts i (n + 1 + i) ↔ Settles 1 (ts.drop (i + 1)) n := by
  obtain ⟨o, ho, hotext⟩ := hopen
  obtain ⟨hi, rfl⟩ := List.getElem?_eq_some_iff.1 ho
  have hclose : ts[i].text ≠ ")" := by
    rw [hotext]
    decide
  have hspan : (ts.take (n + 1 + i + 1)).drop i = ts[i] :: (ts.drop (i + 1)).take (n + 1) := by
    rw [List.drop_take, List.drop_eq_getElem_cons hi,
      show n + 1 + i + 1 - i = n + 1 + 1 by omega, List.take_succ_cons]
  rw [LevelFrom, Settles, hspan, countOf_cons, countOf_cons, if_pos hotext, if_neg hclose,
    List.length_drop]
  omega

/-- From a `(`, the search finds the first index that is level with it. -/
theorem closingParen?_eq_some_iff_isLeast {ts : List Token} {i : Nat} (hopen : TextAt ts i "(")
    (j : Nat) : closingParen? ts i = some j ↔ IsLeast {j | LevelFrom ts i j} j := by
  obtain ⟨o, ho, hotext⟩ := hopen
  obtain ⟨hi, rfl⟩ := List.getElem?_eq_some_iff.1 ho
  have hlevel : ∀ n, LevelFrom ts i (n + 1 + i) ↔ Settles 1 (ts.drop (i + 1)) n :=
    levelFrom_iff ⟨_, ho, hotext⟩
  have hsearch : closingParen? ts i =
      (closeAhead? 1 (ts.drop (i + 1))).map (· + 1 + i) := by
    rw [closingParen?, List.drop_eq_getElem_cons hi, closeAhead?_open hotext, Option.map_map]
    rfl
  rw [hsearch, Option.map_eq_some_iff]
  constructor
  · rintro ⟨n, hn, rfl⟩
    obtain ⟨hsettles, hleast⟩ := (closeAhead?_eq_some_iff n).1 hn
    refine ⟨(hlevel n).2 hsettles, ?_⟩
    rintro k hk
    obtain ⟨m, rfl⟩ : ∃ m, k = m + 1 + i := ⟨k - 1 - i, by have := hk.1; omega⟩
    have := hleast ((hlevel m).1 hk)
    omega
  · rintro ⟨hj, hleast⟩
    obtain ⟨n, rfl⟩ : ∃ n, j = n + 1 + i := ⟨j - 1 - i, by have := hj.1; omega⟩
    refine ⟨n, (closeAhead?_eq_some_iff n).2 ⟨(hlevel n).1 hj, ?_⟩, rfl⟩
    intro m hm
    have := hleast ((hlevel m).2 hm)
    omega

/-- What stands between a `(` and what the search finds is balanced. -/
theorem balanced_of_closingParen? {ts : List Token} {i j : Nat} (hopen : TextAt ts i "(")
    (hj : closingParen? ts i = some j) :
    TextAt ts j ")" ∧ Balanced ((ts.take j).drop (i + 1)) := by
  obtain ⟨before, o, inner, c, after, rfl, rfl, rfl, -, hc, hinner⟩ :=
    (closingParen?_eq_some_iff hopen).1 hj
  have hfront : before ++ o :: (inner ++ c :: after) =
      ((before ++ [o]) ++ inner) ++ c :: after := by
    simp
  have hlength : before.length + inner.length + 1 = ((before ++ [o]) ++ inner).length := by
    simp only [List.length_append, List.length_singleton]
    omega
  have hskip : before.length + 1 = (before ++ [o]).length := by
    rw [List.length_append, List.length_singleton]
  rw [hlength, hfront, List.take_left, hskip, List.drop_left]
  exact ⟨⟨c, by simp, hc⟩, hinner⟩

/-- From a `(`, the search finds nothing exactly if no index is level with it. -/
theorem closingParen?_eq_none_iff {ts : List Token} {i : Nat} (hopen : TextAt ts i "(") :
    closingParen? ts i = none ↔ ¬ ∃ j, LevelFrom ts i j := by
  have hfound := closingParen?_eq_some_iff_isLeast hopen
  constructor
  · intro hnone hexists
    classical
    have hleast : IsLeast {j | LevelFrom ts i j} (Nat.find hexists) :=
      ⟨Nat.find_spec hexists, fun k hk => Nat.find_min' hexists hk⟩
    rw [(hfound _).2 hleast] at hnone
    cases hnone
  · intro hnot
    rw [Option.eq_none_iff_forall_ne_some]
    intro j hj
    exact hnot ⟨j, ((hfound j).1 hj).1⟩

/-! ## The counter -/

/-- The search with a counter that breaks down instead of going below zero. -/
def closeAheadChecked (depth : Nat) : List Token → Except Crash (Option Nat)
  | [] => return none
  | t :: ts => do
    if t.is "(" then return (← closeAheadChecked (depth + 1) ts).map (· + 1)
    else if t.is ")" then
      let up ← Paren.levelUp depth
      if up = 0 then return some 0 else return (← closeAheadChecked up ts).map (· + 1)
    else return (← closeAheadChecked depth ts).map (· + 1)

/-- The search from index `i` with such a counter. -/
def closingChecked (ts : List Token) (i : Nat) : Except Crash (Option Nat) :=
  return (← closeAheadChecked 0 (ts.drop i)).map (· + i)

/-- With a parenthesis open, the counter stays above zero until the search ends. -/
theorem closeAheadChecked_eq (depth : Nat) (ts : List Token) :
    closeAheadChecked (depth + 1) ts = .ok (closeAhead? (depth + 1) ts) := by
  induction ts generalizing depth with
  | nil => rfl
  | cons t ts ih =>
    rw [closeAheadChecked, closeAhead?]
    by_cases hopen : t.is "(" = true
    · rw [if_pos hopen, if_pos hopen, ih]
      rfl
    · rw [if_neg hopen, if_neg hopen]
      by_cases hclose : t.is ")" = true
      · rw [if_pos hclose, if_pos hclose]
        cases depth with
        | zero => rfl
        | succ depth =>
          show (do return (← closeAheadChecked (depth + 1) ts).map (· + 1)) =
            Except.ok ((closeAhead? (depth + 1) ts).map (· + 1))
          rw [ih]
          rfl
      · rw [if_neg hclose, if_neg hclose, ih]
        rfl

/-- From a `(`, the counter never has to stop at zero. -/
theorem closingChecked_eq {ts : List Token} {i : Nat} (hopen : TextAt ts i "(") :
    closingChecked ts i = .ok (closingParen? ts i) := by
  obtain ⟨o, ho, hotext⟩ := hopen
  obtain ⟨hi, rfl⟩ := List.getElem?_eq_some_iff.1 ho
  rw [closingChecked, closingParen?, List.drop_eq_getElem_cons hi, closeAheadChecked, closeAhead?,
    if_pos (Token.is_iff.2 hotext), if_pos (Token.is_iff.2 hotext), closeAheadChecked_eq]
  rfl

/-- From any other token it may have to: there is nothing to take off at a `)`. -/
example : closingChecked [⟨.symbol, ")", 1⟩] 0 =
    .error (.saying "attempt to subtract with overflow") := rfl

end QueryLint.Clause

/-! ## Where the search is asked -/

namespace QueryLint.Grammar

open QueryLint.Clause

variable {m : Type → Type} [Monad m]

/-- A relation of programs to what they yield that is kept when programs are put together. -/
structure Kept (R : ∀ ⦃α : Type⦄, m α → α → Prop) : Prop where
  pure : ∀ {α : Type} (a : α), R (pure a) a
  map : ∀ {α β : Type} (f : α → β) {x : m α} {a : α}, R x a → R (f <$> x) (f a)
  bind : ∀ {α β : Type} {x : m α} {a : α} {f : α → m β} {b : β},
    R x a → R (f a) b → R (x >>= f) b

variable {R : ∀ ⦃α : Type⦄, m α → α → Prop} {closing? : Nat → m (Option Nat)} {ts : List Token}

theorem columnsAsking_kept (hR : Kept R)
    (hclosing : ∀ i, TextAt ts i "(" → R (closing? i) (closingParen? ts i)) (i : Nat) :
    R (columnsAsking closing? ts i) (!isAt ts i "(" || (closingParen? ts i).isSome) := by
  rw [columnsAsking]
  by_cases hopen : isAt ts i "(" = true
  · rw [if_pos hopen, hopen]
    exact hR.map _ (hclosing i (isAt_iff.1 hopen))
  · rw [if_neg hopen, Bool.eq_false_iff.2 hopen]
    exact hR.pure _

/-- The checks of an `INSERT` keep what holds of a search at the indices of a `(`. -/
theorem insertAsking_kept (hR : Kept R)
    (hclosing : ∀ i, TextAt ts i "(" → R (closing? i) (closingParen? ts i)) :
    R (insertAsking closing? ts) (insertViolations ts) := by
  cases hinto : find? ts "INTO" with
  | none =>
    rw [insertViolations, insertAsking, insertAsking, hinto]
    exact hR.pure _
  | some into =>
    cases hvalues : valuesIndex? ts with
    | none =>
      rw [insertViolations, insertAsking, insertAsking, hinto, hvalues]
      exact hR.pure _
    | some values =>
      rw [insertViolations_eq hinto hvalues, insertAsking, hinto, hvalues]
      exact hR.bind (columnsAsking_kept hR hclosing (into + 2)) (hR.pure _)

theorem definitionAsking_kept (hR : Kept R)
    (hclosing : ∀ i, TextAt ts i "(" → R (closing? i) (closingParen? ts i)) (start : Nat) :
    R (definitionAsking closing? ts start)
      (Id.run (definitionAsking (fun i => pure (closingParen? ts i)) ts start)) := by
  rw [definitionAsking, definitionAsking]
  by_cases hopen : isAt ts start "(" = true
  · rw [if_pos hopen, if_pos hopen]
    refine hR.bind (hclosing start (isAt_iff.1 hopen)) ?_
    simp only [pure_bind]
    cases closingParen? ts start with
    | none => exact hR.pure _
    | some close => exact hR.pure _
  · rw [if_neg hopen, if_neg hopen]
    exact hR.pure _

/-- The checks of a `CREATE`, `DROP` or `ALTER` keep what holds of a search at the indices of
    a `(`. -/
theorem ddlAsking_kept (hR : Kept R)
    (hclosing : ∀ i, TextAt ts i "(" → R (closing? i) (closingParen? ts i))
    (kind : Statement.Kind) : R (ddlAsking closing? kind ts) (ddlViolations kind ts) := by
  rw [ddlViolations, ddlAsking, ddlAsking]
  cases find? ts "TABLE" with
  | none => exact hR.pure _
  | some i =>
    by_cases hcreate : kind = .create
    · simp only [if_pos hcreate]
      exact hR.bind (definitionAsking_kept hR hclosing (i + 2)) (hR.pure _)
    · simp only [if_neg hcreate]
      exact hR.pure _

/-- A search that also notes the index it is asked about. -/
def noting (ts : List Token) (i : Nat) : StateM (List Nat) (Option Nat) := do
  modify (· ++ [i])
  return closingParen? ts i

/-- The program yields this, and notes indices of a `(` only. -/
def NotesOpens (ts : List Token) ⦃α : Type⦄ (x : StateM (List Nat) α) (a : α) : Prop :=
  ∀ noted : List Nat, (∀ i ∈ noted, TextAt ts i "(") →
    (x.run noted).1 = a ∧ ∀ i ∈ (x.run noted).2, TextAt ts i "("

theorem kept_notesOpens (ts : List Token) : Kept (NotesOpens ts) where
  pure _ noted hnoted := ⟨rfl, hnoted⟩
  map f x a hx noted hnoted := by
    obtain ⟨hvalue, hnotes⟩ := hx noted hnoted
    rw [StateT.run_map]
    exact ⟨congrArg f hvalue, hnotes⟩
  bind := by
    intro α β x a f b hx hf noted hnoted
    obtain ⟨hvalue, hnotes⟩ := hx noted hnoted
    rw [StateT.run_bind]
    show ((f (x.run noted).1).run (x.run noted).2).1 = b ∧
      ∀ i ∈ ((f (x.run noted).1).run (x.run noted).2).2, TextAt ts i "("
    rw [hvalue]
    exact hf _ hnotes

theorem noting_notesOpens {i : Nat} (hopen : TextAt ts i "(") :
    NotesOpens ts (noting ts i) (closingParen? ts i) := by
  intro noted hnoted
  refine ⟨rfl, ?_⟩
  show ∀ k ∈ noted ++ [i], TextAt ts k "("
  rw [List.forall_mem_append, List.forall_mem_singleton]
  exact ⟨hnoted, hopen⟩

/-- The program does not break down and yields this. -/
def Succeeds ⦃α : Type⦄ (x : Except Crash α) (a : α) : Prop :=
  x = .ok a

theorem kept_succeeds : Kept Succeeds where
  pure _ := rfl
  map _ _ _ hx := by
    rw [hx]
    rfl
  bind := by
    intro α β x a f b hx hf
    rw [hx]
    exact hf

end QueryLint.Grammar

namespace QueryLint.Clause

open QueryLint.Grammar

/-- From a `(`, the search finds `j` exactly if `j` is the first index after it up to which there
    are as many `)` as `(`. A `)` stands there, and what stands between is balanced. It finds
    nothing exactly if there is no such index. Its counter is never taken below zero, and the
    checks of `INSERT`, `CREATE`, `DROP` and `ALTER` ask about indices of a `(` only, so it is
    not in them either. -/
theorem closing_paren_exact (ts : List Token) :
    (∀ i, TextAt ts i "(" →
      (∀ j, closingParen? ts i = some j ↔ IsLeast {j | LevelFrom ts i j} j) ∧
      (∀ j, closingParen? ts i = some j →
        TextAt ts j ")" ∧ Balanced ((ts.take j).drop (i + 1))) ∧
      (closingParen? ts i = none ↔ ¬ ∃ j, LevelFrom ts i j) ∧
      closingChecked ts i = .ok (closingParen? ts i)) ∧
    (((insertAsking (noting ts) ts).run []).1 = insertViolations ts ∧
      ∀ i ∈ ((insertAsking (noting ts) ts).run []).2, TextAt ts i "(") ∧
    (∀ kind, ((ddlAsking (noting ts) kind ts).run []).1 = ddlViolations kind ts ∧
      ∀ i ∈ ((ddlAsking (noting ts) kind ts).run []).2, TextAt ts i "(") ∧
    insertAsking (closingChecked ts) ts = .ok (insertViolations ts) ∧
    ∀ kind, ddlAsking (closingChecked ts) kind ts = .ok (ddlViolations kind ts) := by
  have hnone : ∀ i ∈ ([] : List Nat), TextAt ts i "(" := by simp
  have hnotes := kept_notesOpens ts
  refine ⟨?_, insertAsking_kept hnotes (fun _ => noting_notesOpens) [] hnone,
    fun kind => ddlAsking_kept hnotes (fun _ => noting_notesOpens) kind [] hnone,
    insertAsking_kept kept_succeeds (fun _ => closingChecked_eq),
    ddlAsking_kept kept_succeeds (fun _ => closingChecked_eq)⟩
  intro i hopen
  exact ⟨closingParen?_eq_some_iff_isLeast hopen, fun j => balanced_of_closingParen? hopen,
    closingParen?_eq_none_iff hopen, closingChecked_eq hopen⟩

/-- A column list with a group in it, and a `(` at the end that nothing closes. -/
theorem closing_paren_exact_nested :
    let ts := ["INSERT", "INTO", "T", "(", "A", "(", ")", ")", "VALUES", "("].map fun text =>
      Token.mk .symbol text 1
    TextAt ts 3 "(" ∧ IsLeast {j | LevelFrom ts 3 j} 7 ∧ Balanced ((ts.take 7).drop 4) ∧
      TextAt ts 9 "(" ∧ (¬ ∃ j, LevelFrom ts 9 j) ∧
      ((insertAsking (noting ts) ts).run []).2 = [3] := by
  intro ts
  have hfirst : TextAt ts 3 "(" := ⟨_, rfl, rfl⟩
  have hlast : TextAt ts 9 "(" := ⟨_, rfl, rfl⟩
  have hclosed : closingParen? ts 3 = some 7 := by decide
  have hunclosed : closingParen? ts 9 = none := by decide
  obtain ⟨hsearch, -⟩ := closing_paren_exact ts
  obtain ⟨hfound, hbetween, -, -⟩ := hsearch 3 hfirst
  obtain ⟨-, -, hnone, -⟩ := hsearch 9 hlast
  exact ⟨hfirst, (hfound 7).1 hclosed, (hbetween 7 hclosed).2, hlast, hnone.1 hunclosed,
    by decide⟩

end QueryLint.Clause

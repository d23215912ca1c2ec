/-
  QueryLint.Proofs.SetOperands

  What is reported about set operations, said by the places of the operators. An operator has its
  right operand if a `SELECT` follows, perhaps behind `ALL` or `DISTINCT`, and then perhaps behind
  opening parentheses (`IsOperand`); `operandIsSelect_iff` says that looking ahead finds exactly
  this.

  The sequences that follow the occurrences of an operator are collected in one pass. How many of
  them have a property is how many places of the operator do (`ncard_places`), so the reports of
  each operator can be counted (`set_operations_exact`).
-/
import QueryLint.Extended.SetOperation
import QueryLint.Proofs.ClosingParen
import Mathlib.Data.List.TakeWhile
import Mathlib.Data.Set.Card

namespace QueryLint.SetOperation

open QueryLint.Clause

/-! ## Operands -/

/-- A `SELECT`, perhaps behind `ALL` or `DISTINCT`, and then perhaps behind opening parentheses. -/
def IsOperand (ts : List Token) : Prop :=
  ∃ quantifier opens select rest, ts = quantifier ++ (opens ++ select :: rest) ∧
    (quantifier = [] ∨ ∃ q, quantifier = [q] ∧ (q.text = "ALL" ∨ q.text = "DISTINCT")) ∧
    (∀ t ∈ opens, t.text = "(") ∧ select.text = "SELECT"

/-- Without a quantifier in front nothing is dropped. -/
theorem dropQuantifier_cons {t : Token} (hall : t.text ≠ "ALL") (hdistinct : t.text ≠ "DISTINCT")
    (ts : List Token) : dropQuantifier (t :: ts) = t :: ts := by
  simp [dropQuantifier, hall, hdistinct]

/-- What is dropped is a quantifier, or nothing. -/
theorem exists_dropQuantifier_append (ts : List Token) :
    ∃ quantifier, ts = quantifier ++ dropQuantifier ts ∧
      (quantifier = [] ∨ ∃ q, quantifier = [q] ∧ (q.text = "ALL" ∨ q.text = "DISTINCT")) := by
  cases ts with
  | nil => exact ⟨[], rfl, .inl rfl⟩
  | cons t ts =>
    by_cases hq : t.text = "ALL" ∨ t.text = "DISTINCT"
    · refine ⟨[t], ?_, .inr ⟨t, rfl, hq⟩⟩
      simp [dropQuantifier, hq]
    · rw [not_or] at hq
      exact ⟨[], by rw [dropQuantifier_cons hq.1 hq.2]; rfl, .inl rfl⟩

/-- Looking ahead finds an operand exactly if there is one. -/
theorem operandIsSelect_iff {ts : List Token} : operandIsSelect ts = true ↔ IsOperand ts := by
  rw [operandIsSelect, Option.any_eq_true]
  simp only [Token.is_iff]
  constructor
  · rintro ⟨select, hhead, hselect⟩
    obtain ⟨quantifier, hts, hquantifier⟩ := exists_dropQuantifier_append ts
    obtain ⟨rest, hrest⟩ := List.head?_eq_some_iff.1 hhead
    refine ⟨quantifier, (dropQuantifier ts).takeWhile (·.is "("), select, rest, ?_, hquantifier,
      ?_, hselect⟩
    · rw [← hrest, List.takeWhile_append_dropWhile]
      exact hts
    · intro t ht
      exact Token.is_iff.1 (List.mem_takeWhile_imp (p := fun t : Token => t.is "(") ht)
  · rintro ⟨quantifier, opens, select, rest, rfl, hquantifier, hopens, hselect⟩
    -- Neither `(` nor `SELECT` is a quantifier, so only the quantifier is dropped.
    have hdrop : dropQuantifier (quantifier ++ (opens ++ select :: rest)) =
        opens ++ select :: rest := by
      rcases hquantifier with rfl | ⟨q, rfl, hq⟩
      · cases opens with
        | nil => exact dropQuantifier_cons (by rw [hselect]; decide) (by rw [hselect]; decide) _
        | cons o opens =>
          have ho := hopens o List.mem_cons_self
          exact dropQuantifier_cons (by rw [ho]; decide) (by rw [ho]; decide) _
      · simp [dropQuantifier, hq]
    have hskip : (opens ++ select :: rest).dropWhile (·.is "(") = select :: rest := by
      rw [List.dropWhile_append_of_pos fun t ht => Token.is_iff.2 (hopens t ht),
        List.dropWhile_cons_of_neg (by rw [Token.is_iff, hselect]; decide)]
    exact ⟨select, by rw [hdrop, hskip]; rfl, hselect⟩

/-! ## Places of an operator -/

/-- The places of an operator after which the sequence has a property. -/
def places (word : String) (p : List Token → Prop) (ts : List Token) : Set Nat :=
  {i | TextAt ts i word ∧ p (ts.drop (i + 1))}

theorem places_nil (word : String) (p : List Token → Prop) : places word p [] = ∅ := by
  ext i
  simp [places, TextAt]

/-- The places in a longer sequence: its first, and those of the rest one further on. -/
theorem places_cons (word : String) (p : List Token → Prop) (t : Token) (ts : List Token) :
    places word p (t :: ts) =
      {i | i = 0 ∧ t.text = word ∧ p ts} ∪ Nat.succ '' places word p ts := by
  ext i
  cases i with
  | zero => simp [places, TextAt]
  | succ i => simp [places, TextAt]

theorem finite_places (word : String) (p : List Token → Prop) (ts : List Token) :
    (places word p ts).Finite := by
  refine (Set.finite_lt_nat ts.length).subset ?_
  rintro i ⟨⟨t, ht, -⟩, -⟩
  exact (List.getElem?_eq_some_iff.1 ht).1

/-- As many of the sequences after an operator have a property as places of it do. -/
theorem ncard_places (op : SetOperation) {p : List Token → Prop} {test : List Token → Bool}
    (htest : ∀ ts, test ts = true ↔ p ts) (ts : List Token) :
    (places op.keyword p ts).ncard = (operands op ts).countP test := by
  induction ts with
  | nil => simp [places_nil, operands]
  | cons t ts ih =>
    have hmoved : (Nat.succ '' places op.keyword p ts).ncard = (operands op ts).countP test := by
      rw [Set.ncard_image_of_injective _ Nat.succ_injective, ih]
    have hfirst : Disjoint {i | i = 0 ∧ t.text = op.keyword ∧ p ts}
        (Nat.succ '' places op.keyword p ts) := by
      rw [Set.disjoint_left]
      rintro i ⟨rfl, -⟩ ⟨k, -, hk⟩
      cases hk
    rw [places_cons, Set.ncard_union_eq hfirst ((Set.finite_singleton 0).subset fun i hi => hi.1)
      ((finite_places _ _ _).image _), hmoved, operands]
    by_cases ht : t.text = op.keyword
    · rw [if_pos (Token.is_iff.2 ht), List.countP_cons]
      by_cases hp : p ts
      · simp [ht, hp, (htest ts).2 hp, Nat.add_comm]
      · simp [ht, hp, Bool.eq_false_iff.2 (mt (htest ts).1 hp)]
    · rw [if_neg (mt Token.is_iff.1 ht)]
      simp [ht]

/-! ## The reports -/

/-- How often a word occurs. -/
noncomputable def occurrences (word : String) (ts : List Token) : Nat :=
  {i | TextAt ts i word}.ncard

/-- How often a word occurs without an operand after it. -/
noncomputable def widowed (word : String) (ts : List Token) : Nat :=
  {i | TextAt ts i word ∧ ¬ IsOperand (ts.drop (i + 1))}.ncard

theorem occurrences_eq (op : SetOperation) (ts : List Token) :
    occurrences op.keyword ts = (operands op ts).length := by
  have hplaces : {i | TextAt ts i op.keyword} = places op.keyword (fun _ => True) ts := by
    simp [places]
  rw [occurrences, hplaces, ncard_places op (fun _ => iff_true_intro rfl), List.countP_true]

theorem widowed_eq (op : SetOperation) (ts : List Token) :
    widowed op.keyword ts = (operands op ts).countP (!operandIsSelect ·) := by
  have htest : ∀ us, (!operandIsSelect us) = true ↔ ¬ IsOperand us := by
    intro us
    rw [Bool.not_eq_true', ← Bool.not_eq_true, operandIsSelect_iff]
  exact ncard_places op htest ts

/-- What is wrong with the use of one operator, by counts. -/
theorem violationsOf_eq (ts : List Token) (op : SetOperation) :
    violationsOf ts op =
      (if 2 ≤ occurrences op.keyword ts then [.repeated op (occurrences op.keyword ts)] else []) ++
      List.replicate (widowed op.keyword ts) (.operandNotSelect op) := by
  rw [violationsOf, occurrences_eq, widowed_eq, List.map_const', List.countP_eq_length_filter]
  rfl

/-- About a `SELECT`, and about nothing else, each of `UNION`, `INTERSECT` and `EXCEPT` is
    reported in this order: once with their number if there are two or more of it, and then once
    for each that no operand follows. -/
theorem set_operations_exact (statement : Statement) (ts : List Token) :
    diagnostics statement ts =
      if statement.kind = .select then
        ["UNION", "INTERSECT", "EXCEPT"].flatMap fun word =>
          (if 2 ≤ occurrences word ts then
            [⟨1, "Multiple " ++ word ++ "s", "Ensure " ++ word ++ " syntax is correct. Found " ++
              toString (occurrences word ts) ++ " " ++ word ++ " operations", .grammar⟩]
          else []) ++
          List.replicate (widowed word ts) ⟨1, "Invalid " ++ word,
            "Both sides of " ++ word ++ " must be SELECT statements", .grammar⟩
      else [] := by
  have hwords : ["UNION", "INTERSECT", "EXCEPT"] = all.map keyword := rfl
  rw [diagnostics, violations]
  by_cases hselect : statement.kind = .select
  · rw [if_pos hselect, if_pos hselect, hwords, List.map_flatMap, List.flatMap_map]
    refine List.flatMap_congr fun op _ => ?_
    rw [violationsOf_eq, List.map_append, List.map_replicate, apply_ite (List.map _)]
    rfl
  · rw [if_neg hselect, if_neg hselect, List.map_nil]

end QueryLint.SetOperation

/-
  QueryLint.Proofs.ClauseGrammar

  Which token sequences have no violation of the clause grammar. `Accepted` says it by the
  first text of the sequence: where the first occurrence of each keyword stands, what follows
  it, and which parentheses must be closed. No search is mentioned.

  Each list of violations is empty exactly if its clause is in order, and
  `diagnostics_eq_nil_iff` puts the clauses of a statement together.
-/
import QueryLint.Grammar.Check
import QueryLint.Proofs.ClosingParen

namespace QueryLint.Clause

/-! ## First occurrences -/

/-- The first token with this text stands at index `i`. -/
structure FirstAt (ts : List Token) (text : String) (i : Nat) : Prop where
  here : TextAt ts i text
  before : ∀ j < i, ¬ TextAt ts j text

/-- Some token has this text. -/
def Occurs (ts : List Token) (text : String) : Prop :=
  ∃ t ∈ ts, t.text = text

instance (ts : List Token) (text : String) : Decidable (Occurs ts text) :=
  inferInstanceAs (Decidable (∃ t ∈ ts, t.text = text))

theorem TextAt.lt_length {ts : List Token} {i : Nat} {text : String} (h : TextAt ts i text) :
    i < ts.length := by
  obtain ⟨t, ht, -⟩ := h
  exact (List.getElem?_eq_some_iff.1 ht).1

theorem isAt_iff {ts : List Token} {i : Nat} {text : String} :
    isAt ts i text = true ↔ TextAt ts i text := by
  rw [isAt, Option.any_eq_true]
  exact exists_congr fun t => and_congr_right fun _ => Token.is_iff

theorem hasAfter_iff {ts : List Token} {i : Nat} :
    hasAfter ts i = true ↔ i + 1 < ts.length := by
  rw [hasAfter, decide_eq_true_eq]

theorem find?_eq_some_iff {ts : List Token} {text : String} {i : Nat} :
    find? ts text = some i ↔ FirstAt ts text i := by
  rw [find?, List.findIdx?_eq_some_iff_getElem]
  constructor
  · rintro ⟨hi, htext, hbefore⟩
    refine ⟨⟨ts[i], List.getElem?_eq_getElem hi, Token.is_iff.1 htext⟩, ?_⟩
    rintro j hj ⟨t, ht, rfl⟩
    obtain ⟨_, rfl⟩ := List.getElem?_eq_some_iff.1 ht
    exact hbefore j hj (Token.is_iff.2 rfl)
  · rintro ⟨⟨t, ht, htext⟩, hbefore⟩
    obtain ⟨hi, rfl⟩ := List.getElem?_eq_some_iff.1 ht
    refine ⟨hi, Token.is_iff.2 htext, ?_⟩
    intro j hj hjtext
    exact hbefore j hj ⟨ts[j], List.getElem?_eq_getElem (by omega), Token.is_iff.1 hjtext⟩

theorem find?_eq_none_iff {ts : List Token} {text : String} :
    find? ts text = none ↔ ¬ Occurs ts text := by
  rw [find?, List.findIdx?_eq_none_iff, Occurs]
  constructor
  · rintro h ⟨t, ht, htext⟩
    exact Bool.eq_false_iff.1 (h t ht) (Token.is_iff.2 htext)
  · intro h t ht
    rw [Bool.eq_false_iff]
    exact fun htext => h ⟨t, ht, Token.is_iff.1 htext⟩

theorem FirstAt.occurs {ts : List Token} {text : String} {i : Nat} (h : FirstAt ts text i) :
    Occurs ts text := by
  obtain ⟨t, ht, htext⟩ := h.here
  exact ⟨t, List.mem_of_getElem? ht, htext⟩

/-- A search either finds nothing, and there is no first occurrence, or the only one. -/
theorem find?_cases (ts : List Token) (text : String) :
    (find? ts text = none ∧ ∀ i, ¬ FirstAt ts text i) ∨
      ∃ i, find? ts text = some i ∧ ∀ j, FirstAt ts text j ↔ j = i := by
  cases h : find? ts text with
  | none => exact .inl ⟨rfl, fun i hi => find?_eq_none_iff.1 h hi.occurs⟩
  | some i =>
    refine .inr ⟨i, rfl, fun j => ?_⟩
    rw [← find?_eq_some_iff, h, Option.some.injEq, eq_comm]

/-- A first occurrence cuts the sequence in two. -/
theorem firstAt_iff_split {ts : List Token} {text : String} {i : Nat} :
    FirstAt ts text i ↔ ∃ before t after, ts = before ++ t :: after ∧ before.length = i ∧
      t.text = text ∧ ∀ u ∈ before, u.text ≠ text := by
  constructor
  · rintro ⟨⟨t, ht, htext⟩, hbefore⟩
    obtain ⟨hi, rfl⟩ := List.getElem?_eq_some_iff.1 ht
    have hlength : (ts.take i).length = i := by
      rw [List.length_take]
      omega
    refine ⟨ts.take i, ts[i], ts.drop (i + 1), ?_, hlength, htext, ?_⟩
    · rw [← List.drop_eq_getElem_cons hi, List.take_append_drop]
    · intro u hu hutext
      obtain ⟨j, hj⟩ := List.mem_iff_getElem?.1 hu
      have hlt := (List.getElem?_eq_some_iff.1 hj).1
      rw [hlength] at hlt
      rw [List.getElem?_take_of_lt hlt] at hj
      exact hbefore j hlt ⟨u, hj, hutext⟩
  · rintro ⟨before, t, after, rfl, rfl, htext, hbefore⟩
    refine ⟨⟨t, by simp, htext⟩, ?_⟩
    rintro j hj ⟨u, hu, hutext⟩
    rw [List.getElem?_append_left hj] at hu
    exact hbefore u (List.mem_of_getElem? hu) hutext

end QueryLint.Clause

namespace QueryLint.Grammar

open QueryLint.Clause

/-! ## The grammar -/

/-- The first token with this text, if there is one, is not the last token. -/
def NotLast (ts : List Token) (text : String) : Prop :=
  ∀ i, FirstAt ts text i → i + 1 < ts.length

/-- The first token with this text, if there is one, is directly followed by `BY` and at least
    one more token. -/
def TakesBy (ts : List Token) (text : String) : Prop :=
  ∀ i, FirstAt ts text i → TextAt ts (i + 1) "BY" ∧ i + 2 < ts.length

/-- The first `HAVING`, if there is one, comes after the first `GROUP` and is not the last
    token. -/
def HavingAfterGroup (ts : List Token) : Prop :=
  ∀ i, FirstAt ts "HAVING" i → (∃ g, FirstAt ts "GROUP" g ∧ g < i) ∧ i + 1 < ts.length

/-- `SELECT`, then columns, then the first `FROM`, then something. -/
def SelectShape (ts : List Token) : Prop :=
  ∃ select columns word rest, ts = select :: (columns ++ word :: rest) ∧
    select.text = "SELECT" ∧ word.text = "FROM" ∧
    columns ≠ [] ∧ (∀ t ∈ columns, t.text ≠ "FROM") ∧ rest ≠ []

/-- The word that introduces the inserted values. -/
def valuesWord (ts : List Token) : String :=
  if Occurs ts "VALUES" then "VALUES" else "VALUE"

/-- If a `(` stands at index `i`, it is closed. -/
def ClosedAt (ts : List Token) (i : Nat) : Prop :=
  TextAt ts i "(" → ∃ j, Closes ts i j

/-- If a `(` stands at index `i`, it is closed, and not by the next token. -/
def FilledAt (ts : List Token) (i : Nat) : Prop :=
  TextAt ts i "(" → ∃ j, Closes ts i j ∧ j ≠ i + 1

/-- The clauses of a statement of this kind are in order. -/
def ClausesOf : Statement.Kind → List Token → Prop
  | .select, ts => SelectShape ts ∧ NotLast ts "WHERE" ∧ TakesBy ts "GROUP" ∧
      HavingAfterGroup ts ∧ TakesBy ts "ORDER" ∧ NotLast ts "LIMIT"
  | .insert, ts => ∃ i v, FirstAt ts "INTO" i ∧ FirstAt ts (valuesWord ts) v ∧ i < v ∧
      TextAt ts (v + 1) "(" ∧ ClosedAt ts (i + 2)
  | .update, ts => ∃ i, FirstAt ts "SET" i ∧ 2 ≤ i ∧ i + 1 < ts.length ∧ NotLast ts "WHERE"
  | .delete, ts => Occurs ts "FROM" ∧ NotLast ts "FROM" ∧ NotLast ts "WHERE"
  | .drop, ts | .alter, ts => Occurs ts "TABLE" ∧ NotLast ts "TABLE"
  | .create, ts => ∃ i, FirstAt ts "TABLE" i ∧ i + 1 < ts.length ∧ FilledAt ts (i + 2)
  -- No other statement is supported.
  | .unknown, _ => False

/-- The first token names a kind of statement, and the clauses of that kind are in order. -/
def Accepted (ts : List Token) : Prop :=
  ∃ kind : Statement.Kind, TextAt ts 0 kind.name ∧ ClausesOf kind ts

/-! ## The clauses one by one -/

@[simp] theorem require_eq_nil_iff {ok : Bool} {v : Violation} : require ok v = [] ↔ ok = true := by
  cases ok <;> simp [require]

theorem whereViolations_eq_nil_iff {ts : List Token} :
    whereViolations ts = [] ↔ NotLast ts "WHERE" := by
  obtain ⟨hfind, hfirst⟩ | ⟨i, hfind, hfirst⟩ := find?_cases ts "WHERE" <;>
    simp [whereViolations, NotLast, hfind, hfirst, hasAfter_iff]

theorem limitViolations_eq_nil_iff {ts : List Token} :
    limitViolations ts = [] ↔ NotLast ts "LIMIT" := by
  obtain ⟨hfind, hfirst⟩ | ⟨i, hfind, hfirst⟩ := find?_cases ts "LIMIT" <;>
    simp [limitViolations, NotLast, hfind, hfirst, hasAfter_iff]

theorem groupViolations_eq_nil_iff {ts : List Token} :
    groupViolations ts = [] ↔ TakesBy ts "GROUP" := by
  obtain ⟨hfind, hfirst⟩ | ⟨i, hfind, hfirst⟩ := find?_cases ts "GROUP"
  · simp [groupViolations, TakesBy, hfind, hfirst]
  · by_cases hby : isAt ts (i + 1) "BY" = true
    · simp [groupViolations, TakesBy, hfind, hfirst, hby, isAt_iff.1 hby, hasAfter_iff]
    · simp [groupViolations, TakesBy, hfind, hfirst, hby, mt isAt_iff.2 hby]

theorem orderViolations_eq_nil_iff {ts : List Token} :
    orderViolations ts = [] ↔ TakesBy ts "ORDER" := by
  obtain ⟨hfind, hfirst⟩ | ⟨i, hfind, hfirst⟩ := find?_cases ts "ORDER" <;>
    simp [orderViolations, TakesBy, hfind, hfirst, isAt_iff, hasAfter_iff]

theorem havingViolations_eq_nil_iff {ts : List Token} :
    havingViolations ts = [] ↔ HavingAfterGroup ts := by
  obtain ⟨hfind, hfirst⟩ | ⟨i, hfind, hfirst⟩ := find?_cases ts "HAVING"
  · simp [havingViolations, HavingAfterGroup, hfind, hfirst]
  · obtain ⟨hgroup, hfirstGroup⟩ | ⟨g, hgroup, hfirstGroup⟩ := find?_cases ts "GROUP"
    · simp [havingViolations, HavingAfterGroup, hfind, hfirst, hgroup, hfirstGroup]
    · by_cases hlt : g < i <;>
        simp [havingViolations, HavingAfterGroup, hfind, hfirst, hgroup, hfirstGroup, hlt,
          hasAfter_iff]

theorem fromViolations_eq_nil_iff {ts : List Token} (hts : TextAt ts 0 "SELECT") :
    fromViolations ts = [] ↔ SelectShape ts := by
  have hfrom : fromViolations ts = [] ↔
      ∃ i, FirstAt ts "FROM" i ∧ 1 < i ∧ i + 1 < ts.length := by
    obtain ⟨hfind, hfirst⟩ | ⟨i, hfind, hfirst⟩ := find?_cases ts "FROM" <;>
      simp [fromViolations, hfind, hfirst, hasAfter_iff]
  rw [hfrom]
  constructor
  · rintro ⟨i, hfirst, hi, hafter⟩
    obtain ⟨before, word, rest, rfl, rfl, hword, hbefore⟩ := firstAt_iff_split.1 hfirst
    cases before with
    | nil => cases hi
    | cons select columns =>
      obtain ⟨t, ht, htext⟩ := hts
      cases ht
      refine ⟨select, columns, word, rest, rfl, htext, hword, ?_, ?_, ?_⟩
      · rintro rfl
        exact absurd hi (by simp)
      · exact fun u hu => hbefore u (List.mem_cons_of_mem _ hu)
      · rintro rfl
        simp at hafter
  · rintro ⟨select, columns, word, rest, rfl, hselect, hword, hcolumns, hfree, hrest⟩
    have hpos := List.length_pos_iff.2 hcolumns
    have hposRest := List.length_pos_iff.2 hrest
    refine ⟨columns.length + 1, firstAt_iff_split.2 ?_, by omega, ?_⟩
    · refine ⟨select :: columns, word, rest, rfl, rfl, hword, ?_⟩
      rw [List.forall_mem_cons, hselect]
      exact ⟨by decide, hfree⟩
    · simp only [List.length_cons, List.length_append]
      omega

theorem valuesIndex?_eq (ts : List Token) : valuesIndex? ts = find? ts (valuesWord ts) := by
  rw [valuesIndex?, valuesWord]
  cases h : find? ts "VALUES" with
  | none => rw [if_neg (find?_eq_none_iff.1 h), Option.none_or]
  | some i => rw [if_pos (find?_eq_some_iff.1 h).occurs, Option.some_or, h]

/-- The word that introduces the values is not `INTO`. -/
theorem valuesWord_ne_into (ts : List Token) : valuesWord ts ≠ "INTO" := by
  rw [valuesWord]
  split <;> decide

/-- The checks of an `INSERT` with both of its keywords. -/
theorem insertViolations_eq {ts : List Token} {into values : Nat}
    (hinto : find? ts "INTO" = some into) (hvalues : valuesIndex? ts = some values) :
    insertViolations ts = require (into ≤ values) .insertOrder ++
      require (hasAfter ts into) .insertWithoutTable ++
      require (!isAt ts (into + 2) "(" || (closingParen? ts (into + 2)).isSome) .openColumnList ++
      require (isAt ts (values + 1) "(") .malformedValues := by
  rw [insertViolations, insertAsking, hinto, hvalues]
  simp only [columnsAsking]
  cases isAt ts (into + 2) "(" with
  | true => rfl
  | false => rfl

theorem insertViolations_eq_nil_iff {ts : List Token} :
    insertViolations ts = [] ↔ ∃ i v, FirstAt ts "INTO" i ∧ FirstAt ts (valuesWord ts) v ∧
      i < v ∧ TextAt ts (v + 1) "(" ∧ ClosedAt ts (i + 2) := by
  obtain ⟨hinto, hfirstInto⟩ | ⟨i, hinto, hfirstInto⟩ := find?_cases ts "INTO"
  · simp [insertViolations, insertAsking, hinto, hfirstInto]
  obtain ⟨hvalues, hfirstValues⟩ | ⟨v, hvalues, hfirstValues⟩ := find?_cases ts (valuesWord ts)
  · simp [insertViolations, insertAsking, hinto, valuesIndex?_eq, hvalues, hfirstValues]
  -- The two words are different, so the first `INTO` is before the values or after them.
  have hne : i ≠ v := by
    rintro rfl
    obtain ⟨t, ht, htext⟩ := ((hfirstInto i).2 rfl).here
    obtain ⟨u, hu, hutext⟩ := ((hfirstValues i).2 rfl).here
    rw [ht] at hu
    cases hu
    exact valuesWord_ne_into ts (hutext.symm.trans htext)
  have hlt := ((hfirstValues v).2 rfl).here.lt_length
  have hclosed : (!isAt ts (i + 2) "(" || (closingParen? ts (i + 2)).isSome) = true ↔
      ClosedAt ts (i + 2) := by
    rw [Bool.or_eq_true, Bool.not_eq_true', ← Bool.not_eq_true, isAt_iff, ClosedAt]
    constructor
    · rintro (hnone | hsome) hopen
      · exact absurd hopen hnone
      · exact (isSome_closingParen?_iff hopen).1 hsome
    · intro h
      by_cases hopen : TextAt ts (i + 2) "("
      · exact .inr ((isSome_closingParen?_iff hopen).2 (h hopen))
      · exact .inl hopen
  simp only [insertViolations_eq hinto (valuesIndex?_eq ts ▸ hvalues), hfirstInto, hfirstValues,
    List.append_eq_nil_iff, require_eq_nil_iff, decide_eq_true_eq, hasAfter_iff, hclosed, isAt_iff,
    exists_eq_left, exists_and_left]
  constructor
  · rintro ⟨⟨⟨hle, -⟩, hlist⟩, hparen⟩
    exact ⟨by omega, hparen, hlist⟩
  · rintro ⟨hbefore, hparen, hlist⟩
    exact ⟨⟨⟨by omega, by omega⟩, hlist⟩, hparen⟩

theorem updateViolations_eq_nil_iff {ts : List Token} :
    updateViolations ts = [] ↔
      ∃ i, FirstAt ts "SET" i ∧ 2 ≤ i ∧ i + 1 < ts.length ∧ NotLast ts "WHERE" := by
  obtain ⟨hfind, hfirst⟩ | ⟨i, hfind, hfirst⟩ := find?_cases ts "SET"
  · simp [updateViolations, hfind, hfirst]
  · by_cases hi : i ≤ 1
    · have hshort : ¬ 2 ≤ i := by omega
      simp [updateViolations, hfind, hfirst, hi, hshort]
    · have hlong : 2 ≤ i := by omega
      simp [updateViolations, hfind, hfirst, hi, hlong, hasAfter_iff, whereViolations_eq_nil_iff]

/-- A first occurrence that is not last, without its index. -/
theorem exists_firstAt_iff {ts : List Token} {text : String} :
    (∃ i, FirstAt ts text i ∧ i + 1 < ts.length) ↔ Occurs ts text ∧ NotLast ts text := by
  obtain ⟨hfind, hfirst⟩ | ⟨i, hfind, hfirst⟩ := find?_cases ts text
  · simp [hfirst, find?_eq_none_iff.1 hfind]
  · have hoccurs : Occurs ts text := ((hfirst i).2 rfl).occurs
    simp [NotLast, hfirst, hoccurs]

theorem deleteViolations_eq_nil_iff {ts : List Token} :
    deleteViolations ts = [] ↔ Occurs ts "FROM" ∧ NotLast ts "FROM" ∧ NotLast ts "WHERE" := by
  rw [← and_assoc, ← exists_firstAt_iff]
  obtain ⟨hfind, hfirst⟩ | ⟨i, hfind, hfirst⟩ := find?_cases ts "FROM" <;>
    simp [deleteViolations, hfind, hfirst, hasAfter_iff, whereViolations_eq_nil_iff]

theorem definitionAsking_eq_nil_iff {ts : List Token} {i : Nat} :
    Id.run (definitionAsking (fun i => pure (closingParen? ts i)) ts i) = [] ↔ FilledAt ts i := by
  by_cases hopen : TextAt ts i "("
  · rw [definitionAsking, if_pos (isAt_iff.2 hopen), FilledAt, forall_prop_of_true hopen]
    simp only [← closingParen?_eq_some_iff hopen]
    cases closingParen? ts i <;> simp
  · rw [definitionAsking, if_neg (mt isAt_iff.1 hopen), FilledAt]
    simp [hopen]

theorem ddlViolations_eq_nil_iff {kind : Statement.Kind} {ts : List Token} :
    ddlViolations kind ts = [] ↔ ∃ i, FirstAt ts "TABLE" i ∧ i + 1 < ts.length ∧
      (kind = .create → FilledAt ts (i + 2)) := by
  obtain ⟨hfind, hfirst⟩ | ⟨i, hfind, hfirst⟩ := find?_cases ts "TABLE"
  · simp [ddlViolations, ddlAsking, hfind, hfirst]
  · by_cases hkind : kind = .create <;>
      simp [ddlViolations, ddlAsking, hfind, hfirst, hkind, hasAfter_iff,
        definitionAsking_eq_nil_iff]

theorem selectViolations_eq_nil_iff {ts : List Token} (hts : TextAt ts 0 "SELECT") :
    selectViolations ts = [] ↔ SelectShape ts ∧ NotLast ts "WHERE" ∧ TakesBy ts "GROUP" ∧
      HavingAfterGroup ts ∧ TakesBy ts "ORDER" ∧ NotLast ts "LIMIT" := by
  simp only [selectViolations, List.append_eq_nil_iff, fromViolations_eq_nil_iff hts,
    whereViolations_eq_nil_iff, groupViolations_eq_nil_iff, havingViolations_eq_nil_iff,
    orderViolations_eq_nil_iff, limitViolations_eq_nil_iff, and_assoc]

/-! ## Statements -/

theorem textAt_zero_iff {t : Token} {ts : List Token} {text : String} :
    TextAt (t :: ts) 0 text ↔ t.text = text := by
  simp [TextAt]

/-- A keyword that has a kind is the name of that kind. -/
theorem name_ofKeyword {text : String} (h : Statement.Kind.ofKeyword text ≠ .unknown) :
    (Statement.Kind.ofKeyword text).name = text := by
  unfold Statement.Kind.ofKeyword at h ⊢
  cases hfind : Statement.standardKinds.find? fun kind => kind.name == text with
  | none => exact absurd (by rw [hfind]; rfl) h
  | some kind =>
    have hname := List.find?_some hfind
    exact beq_iff_eq.1 hname

/-- A statement has no violations exactly if the clauses of its kind are in order. -/
theorem violations_cons_eq_nil_iff {t : Token} {ts : List Token} :
    violations (t :: ts) = [] ↔ ClausesOf (Statement.Kind.ofKeyword t.text) (t :: ts) := by
  have hname := @name_ofKeyword t.text
  simp only [violations, Statement.classify?_cons, Statement.ofKeyword]
  cases hkind : Statement.Kind.ofKeyword t.text with
  | select =>
    rw [hkind] at hname
    exact selectViolations_eq_nil_iff (textAt_zero_iff.2 (hname (by decide)).symm)
  | insert => exact insertViolations_eq_nil_iff
  | update => exact updateViolations_eq_nil_iff
  | delete => exact deleteViolations_eq_nil_iff
  | create => simp [ddlViolations_eq_nil_iff, ClausesOf]
  | drop => simp [ddlViolations_eq_nil_iff, ClausesOf, ← exists_firstAt_iff]
  | alter => simp [ddlViolations_eq_nil_iff, ClausesOf, ← exists_firstAt_iff]
  | unknown => simp [ClausesOf]

/-- The clause grammar: nothing is reported about a token sequence exactly if its first text
    names a kind of statement and the clauses of that kind are in order. -/
theorem diagnostics_eq_nil_iff (ts : List Token) : diagnostics ts = [] ↔ Accepted ts := by
  rw [diagnostics, List.map_eq_nil_iff]
  cases ts with
  | nil => simp [violations, Accepted, TextAt]
  | cons t ts =>
    rw [violations_cons_eq_nil_iff]
    constructor
    · intro h
      have hkind : Statement.Kind.ofKeyword t.text ≠ .unknown := by
        intro hunknown
        rw [hunknown] at h
        exact h
      exact ⟨_, textAt_zero_iff.2 (name_ofKeyword hkind).symm, h⟩
    · rintro ⟨kind, hname, h⟩
      have hkind : kind ∈ Statement.standardKinds := by
        cases kind with
        | unknown => exact h.elim
        | _ => decide
      rwa [textAt_zero_iff.1 hname, Statement.Kind.ofKeyword_name hkind]

end QueryLint.Grammar

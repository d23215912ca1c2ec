/-
  QueryLint.Proofs.MatchedParens

  Which parentheses of a text are partners, said without a stack: what is seen between the two
  is balanced (`Group.Matched`). `mem_groups_iff` says that the groups found with a stack are
  these pairs and no others, and `stackAfter_seen_eq_nil` that the stack is empty in the end
  where every opening parenthesis has a partner.
-/
import QueryLint.Proofs.ParenSafety

namespace QueryLint.Paren

/-- Parentheses of which each has its partner among them. -/
inductive Balanced : List Seen → Prop
  | nil : Balanced []
  | group {i j : Nat} {inner rest : List Seen} :
    Balanced inner → Balanced rest → Balanced (⟨.opening, i⟩ :: (inner ++ ⟨.closing, j⟩ :: rest))

/-- The two parentheses are partners: between them every parenthesis has its own. -/
def Group.Matched (cs : List Char) (g : Group) : Prop :=
  ∃ before inner after,
    seen cs = before ++ ⟨.opening, g.start⟩ :: (inner ++ ⟨.closing, g.stop⟩ :: after) ∧
      Balanced inner

theorem Balanced.append {a b : List Seen} (ha : Balanced a) (hb : Balanced b) :
    Balanced (a ++ b) := by
  induction ha with
  | nil => exact hb
  | group hinner _ _ ih =>
    rw [List.cons_append, List.append_assoc, List.cons_append]
    exact .group hinner ih

/-! ## The stack -/

/-- The offsets of the parentheses open after some, innermost first. -/
def stackAfter (opened : List Nat) : List Seen → List Nat
  | [] => opened
  | ⟨.opening, i⟩ :: ps => stackAfter (i :: opened) ps
  | ⟨.closing, _⟩ :: ps => stackAfter opened.tail ps

theorem stackAfter_append (opened : List Nat) (ps qs : List Seen) :
    stackAfter opened (ps ++ qs) = stackAfter (stackAfter opened ps) qs := by
  induction ps generalizing opened with
  | nil => rfl
  | cons p ps ih =>
    obtain ⟨side, i⟩ := p
    cases side with
    | opening => exact ih _
    | closing => exact ih _

theorem groupsFrom_append (opened : List Nat) (ps qs : List Seen) :
    groupsFrom opened (ps ++ qs) =
      groupsFrom opened ps ++ groupsFrom (stackAfter opened ps) qs := by
  induction ps generalizing opened with
  | nil => rfl
  | cons p ps ih =>
    obtain ⟨side, j⟩ := p
    cases side with
    | opening => exact ih _
    | closing =>
      cases opened with
      | nil => exact ih _
      | cons i outer =>
        rw [List.cons_append, groupsFrom, groupsFrom, ih, List.cons_append]
        rfl

/-- Balanced parentheses leave the stack as it was. -/
theorem Balanced.stackAfter_eq {ps : List Seen} (h : Balanced ps) (opened : List Nat) :
    stackAfter opened ps = opened := by
  induction h generalizing opened with
  | nil => rfl
  | @group i j inner rest _ _ ihInner ihRest =>
    rw [stackAfter, stackAfter_append, ihInner, stackAfter, List.tail_cons, ihRest]

/-- What is open was open before or was opened since. -/
theorem mem_stackAfter {opened : List Nat} {ps : List Seen} {i : Nat}
    (h : i ∈ stackAfter opened ps) : i ∈ opened ∨ ⟨.opening, i⟩ ∈ ps := by
  induction ps generalizing opened with
  | nil => exact .inl h
  | cons p ps ih =>
    obtain ⟨side, j⟩ := p
    cases side with
    | opening =>
      rcases ih h with hi | hi
      · rcases List.mem_cons.1 hi with rfl | hi
        · exact .inr List.mem_cons_self
        · exact .inl hi
      · exact .inr (List.mem_cons_of_mem _ hi)
    | closing =>
      rcases ih h with hi | hi
      · exact .inl (List.mem_of_mem_tail hi)
      · exact .inr (List.mem_cons_of_mem _ hi)

/-! ## Groups are partners -/

/-- How the parentheses read so far explain the stack: behind each open one stand balanced
    ones up to the next. -/
inductive Explains : List Seen → List Nat → Prop
  | nothing (before : List Seen) : Explains before []
  | opened {before inner : List Seen} {outer : List Nat} {i : Nat} :
    Explains before outer → Balanced inner →
      Explains (before ++ ⟨.opening, i⟩ :: inner) (i :: outer)

theorem Explains.append {before ps : List Seen} {opened : List Nat} (h : Explains before opened)
    (hps : Balanced ps) : Explains (before ++ ps) opened := by
  cases h with
  | nothing => exact .nothing _
  | opened houter hinner =>
    rw [List.append_assoc, List.cons_append]
    exact .opened houter (hinner.append hps)

theorem matched_of_mem_groupsFrom {opened : List Nat} {before ps : List Seen}
    (hopened : Explains before opened) {g : Group} (hg : g ∈ groupsFrom opened ps) :
    ∃ b inner a, before ++ ps = b ++ ⟨.opening, g.start⟩ :: (inner ++ ⟨.closing, g.stop⟩ :: a) ∧
      Balanced inner := by
  induction ps generalizing opened before with
  | nil => cases hg
  | cons p ps ih =>
    have hmore : before ++ p :: ps = (before ++ [p]) ++ ps := by simp
    obtain ⟨side, j⟩ := p
    cases side with
    | opening =>
      rw [hmore]
      exact ih (.opened hopened .nil) hg
    | closing =>
      cases hopened with
      | nothing =>
        rw [hmore]
        exact ih (.nothing _) hg
      | @opened b inner outer i houter hinner =>
        rw [groupsFrom] at hg
        -- The group closed here has balanced parentheses inside, and is itself balanced.
        rcases List.mem_cons.1 hg with rfl | hg
        · exact ⟨b, inner, ps, by simp, hinner⟩
        · have hgroup : Explains ((b ++ ⟨.opening, i⟩ :: inner) ++ [⟨.closing, j⟩]) outer := by
            rw [List.append_assoc, List.cons_append]
            exact houter.append (.group hinner .nil)
          rw [hmore]
          exact ih hgroup hg

/-- The groups of a text are the pairs of partners. -/
theorem mem_groups_iff {cs : List Char} {g : Group} : g ∈ groups cs ↔ g.Matched cs := by
  constructor
  · intro hg
    obtain ⟨b, inner, a, hseen, hinner⟩ := matched_of_mem_groupsFrom (.nothing []) hg
    exact ⟨b, inner, a, hseen, hinner⟩
  · rintro ⟨b, inner, a, hseen, hinner⟩
    have hclose : groupsFrom (g.start :: stackAfter [] b) (⟨.closing, g.stop⟩ :: a) =
        g :: groupsFrom (stackAfter [] b) a := rfl
    rw [groups, hseen, groupsFrom_append, groupsFrom, groupsFrom_append, hinner.stackAfter_eq,
      hclose]
    exact List.mem_append_right _ (List.mem_append_right _ List.mem_cons_self)

/-- Where every opening parenthesis has a partner, none is left open. -/
theorem stackAfter_seen_eq_nil {cs : List Char}
    (h : ∀ i, ⟨.opening, i⟩ ∈ seen cs → ∃ j, Group.Matched cs ⟨i, j⟩) :
    stackAfter [] (seen cs) = [] := by
  apply List.eq_nil_iff_forall_not_mem.2
  intro i hi
  have hopen : (⟨.opening, i⟩ : Seen) ∈ seen cs := by
    rcases mem_stackAfter hi with hnone | hopen
    · cases hnone
    · exact hopen
  obtain ⟨j, b, inner, a, hseen, hinner⟩ := h i hopen
  -- Up to its partner the parenthesis leaves no trace, so it is open before it or after.
  have hstack : stackAfter [] (seen cs) = stackAfter (stackAfter [] b) a := by
    rw [hseen, stackAfter_append, stackAfter, stackAfter_append, hinner.stackAfter_eq, stackAfter,
      List.tail_cons]
  have hsorted := seen_sorted cs
  rw [hseen, List.pairwise_append, List.pairwise_cons] at hsorted
  obtain ⟨-, ⟨hlater, -⟩, hearlier⟩ := hsorted
  have hbefore : (⟨.opening, i⟩ : Seen) ∉ b := by
    intro hb
    exact Nat.lt_irrefl i (hearlier _ hb _ List.mem_cons_self)
  have hafter : (⟨.opening, i⟩ : Seen) ∉ a := by
    intro ha
    exact Nat.lt_irrefl i (hlater _ (List.mem_append_right _ (List.mem_cons_of_mem _ ha)))
  rw [hstack] at hi
  rcases mem_stackAfter hi with hi | hi
  · rcases mem_stackAfter hi with hnone | hi
    · cases hnone
    · exact hbefore hi
  · exact hafter hi

end QueryLint.Paren

/-
  QueryLint.Proofs.ParenSafety

  The stack of open parentheses is never misused. Every offset on it is that of a `(`
  seen earlier, so the text between it and a `)` seen later can be cut out of the query:
  the range is in order, in bounds and on character boundaries. The nesting depth is the
  height of the stack, so it can always go a level up where a group closes.

  `Nesting.step_sound` and `Nesting.run_sound` carry this through the nesting counter and
  `mem_groups` through the groups.
-/
import QueryLint.Paren.Group
import QueryLint.Proofs.Scan

namespace QueryLint.Text

/-! ## Slices of a text -/

/-- An octet offset at which a character begins or the text ends. -/
def IsBoundary (cs : List Char) (n : Nat) : Prop :=
  ∃ a b, cs = a ++ b ∧ utf8Size a = n

/-- Two octet offsets that bound a part of a text. -/
structure ValidRange (cs : List Char) (start stop : Nat) : Prop where
  ordered : start ≤ stop
  in_bounds : stop ≤ utf8Size cs
  start_boundary : IsBoundary cs start
  stop_boundary : IsBoundary cs stop

theorem charIndex?_eq_some_iff {cs : List Char} {n k : Nat} :
    charIndex? cs n = some k ↔ ∃ a b, cs = a ++ b ∧ utf8Size a = n ∧ a.length = k := by
  induction cs generalizing n k with
  | nil =>
    cases n with
    | zero => simp [charIndex?, eq_comm]
    | succ n => simp [charIndex?]
  | cons c cs ih =>
    have hpos := c.utf8Size_pos
    cases n with
    | zero =>
      constructor
      · intro h
        rw [charIndex?] at h
        cases h
        exact ⟨[], c :: cs, rfl, rfl, rfl⟩
      · rintro ⟨a, b, hab, hsize, rfl⟩
        cases a with
        | nil => rfl
        | cons d a =>
          cases hab
          rw [utf8Size_cons] at hsize
          omega
    | succ n =>
      rw [charIndex?]
      constructor
      · intro h
        split at h
        · obtain ⟨m, hm, rfl⟩ := Option.map_eq_some_iff.1 h
          obtain ⟨a, b, rfl, hsize, rfl⟩ := ih.1 hm
          refine ⟨c :: a, b, rfl, ?_, rfl⟩
          rw [utf8Size_cons]
          omega
        · cases h
      · rintro ⟨a, b, hab, hsize, rfl⟩
        cases a with
        | nil => cases hsize
        | cons d a =>
          cases hab
          rw [utf8Size_cons] at hsize
          rw [if_pos (by omega), ih.2 ⟨a, b, rfl, by omega, rfl⟩]
          rfl

/-- A slice is the part of the text that the two offsets bound. -/
theorem slice?_eq_some_iff {cs body : List Char} {i j : Nat} :
    slice? cs i j = some body ↔
      ∃ a b, cs = a ++ (body ++ b) ∧ utf8Size a = i ∧ utf8Size (a ++ body) = j := by
  constructor
  · intro h
    rw [slice?] at h
    split at h
    · rename_i m n hm hn
      obtain ⟨a, b, hab, hsize, rfl⟩ := charIndex?_eq_some_iff.1 hm
      obtain ⟨a', b', hab', hsize', rfl⟩ := charIndex?_eq_some_iff.1 hn
      split at h
      · rename_i hle
        cases h
        -- Both offsets cut the text from its front, so the shorter part begins the longer.
        have htake : cs.take a'.length = a' := by rw [hab', List.take_left']; rfl
        have hprefix : a'.take a.length = a := by
          rw [← htake, List.take_take, Nat.min_eq_left hle, hab, List.take_left']
          rfl
        have hsplit : a ++ a'.drop a.length = a' := by
          conv_rhs => rw [← List.take_append_drop a.length a', hprefix]
        rw [htake]
        refine ⟨a, b', ?_, hsize, by rw [hsplit, hsize']⟩
        rw [← List.append_assoc, hsplit, hab']
      · cases h
    · cases h
  · rintro ⟨a, b, rfl, hi, hj⟩
    have hstart : charIndex? (a ++ (body ++ b)) i = some a.length :=
      charIndex?_eq_some_iff.2 ⟨a, body ++ b, rfl, hi, rfl⟩
    have hstop : charIndex? (a ++ (body ++ b)) j = some (a ++ body).length :=
      charIndex?_eq_some_iff.2 ⟨a ++ body, b, (List.append_assoc ..).symm, hj, rfl⟩
    rw [slice?, hstart, hstop]
    simp only [List.length_append]
    rw [if_pos (Nat.le_add_right ..), ← List.append_assoc, ← List.length_append,
      List.take_left', List.drop_left']
    · rfl
    · rfl

/-- Offsets that bound a slice are a valid range. -/
theorem ValidRange.of_slice? {cs body : List Char} {i j : Nat} (h : slice? cs i j = some body) :
    ValidRange cs i j := by
  obtain ⟨a, b, rfl, rfl, rfl⟩ := slice?_eq_some_iff.1 h
  refine ⟨?_, ?_, ⟨a, body ++ b, rfl, rfl⟩, ⟨a ++ body, b, (List.append_assoc ..).symm, rfl⟩⟩
  · rw [utf8Size_append]
    omega
  · simp only [utf8Size_append]
    omega

end QueryLint.Text

namespace QueryLint.Paren

open QueryLint.Text

/-! ## Between two parentheses -/

/-- Two parentheses of a text and what stands before, between and after them. -/
theorem split_between {cs : List Char} {p q : Seen} (hp : p ∈ seen cs) (hq : q ∈ seen cs)
    (hlt : p.offset < q.offset) :
    ∃ a body b, cs = a ++ p.side.char :: (body ++ q.side.char :: b) ∧ utf8Size a = p.offset ∧
      utf8Size (a ++ p.side.char :: body) = q.offset := by
  obtain ⟨a, b, hab, hpa⟩ := mem_seen hp
  obtain ⟨a', b', hab', hqa⟩ := mem_seen hq
  -- The two ways to split the text at a parenthesis: what stands before one of them is a
  -- part of what stands before the other, and the offsets say of which.
  rcases List.append_eq_append_iff.1 (hab.symm.trans hab') with ⟨m, rfl, hm⟩ | ⟨m, rfl, -⟩
  · cases m with
    | nil => simp [hpa, hqa] at hlt
    | cons c m =>
      injection hm with hc hb
      refine ⟨a, m, b', ?_, hpa.symm, ?_⟩
      · rw [hab, hb]
        rfl
      · rw [hqa, hc]
  · rw [hpa, hqa, utf8Size_append] at hlt
    omega

@[simp] theorem Side.utf8Size_char (side : Side) : side.char.utf8Size = 1 := by
  cases side <;> rfl

/-- Of two parentheses the text between the first and the second can be cut out. -/
theorem slice?_between {cs : List Char} {p q : Seen} (hp : p ∈ seen cs) (hq : q ∈ seen cs)
    (hlt : p.offset < q.offset) : ∃ body, slice? cs (p.offset + 1) q.offset = some body := by
  obtain ⟨a, body, b, rfl, hpa, hqa⟩ := split_between hp hq hlt
  refine ⟨body, slice?_eq_some_iff.2 ⟨a ++ [p.side.char], q.side.char :: b, ?_, ?_, ?_⟩⟩
  · simp
  · simp [hpa]
  · simp [← hqa]

theorem between_of_slice? {cs body : List Char} {i j : Nat}
    (h : slice? cs (i + 1) j = some body) : between cs i j = .ok body := by
  rw [between, h]

/-- Of the parentheses seen, the earlier ones have smaller offsets. -/
theorem offset_lt_of_split {cs : List Char} {before after : List Seen} {p q : Seen}
    (hseen : seen cs = before ++ q :: after) (hp : p ∈ before) : p.offset < q.offset := by
  have hsorted := seen_sorted cs
  rw [hseen, List.pairwise_append] at hsorted
  exact hsorted.2.2 p hp q List.mem_cons_self

/-- A closing parenthesis and an opening one seen before it bound a part of the text. -/
theorem slice?_of_split {cs : List Char} {before after : List Seen} {i j : Nat}
    (hseen : seen cs = before ++ ⟨.closing, j⟩ :: after) (hi : ⟨.opening, i⟩ ∈ before) :
    ∃ body, slice? cs (i + 1) j = some body := by
  have hp : ⟨.opening, i⟩ ∈ seen cs := by
    rw [hseen]
    exact List.mem_append_left _ hi
  have hq : ⟨.closing, j⟩ ∈ seen cs := by
    rw [hseen]
    simp
  exact slice?_between hp hq (offset_lt_of_split hseen hi)

/-! ## The nesting counter -/

/-- The counter after the parentheses `before`: what is open was opened, and the depth is
    the number of parentheses open. -/
structure Nesting.Sound (before : List Seen) (n : Nesting) : Prop where
  opened_seen : ∀ i ∈ n.opened, ⟨.opening, i⟩ ∈ before
  depth_eq : n.depth = n.opened.length

theorem Nesting.start_sound : Nesting.start.Sound [] :=
  ⟨by simp [Nesting.start], rfl⟩

/-- One parenthesis more: the counter goes on and stays sound. -/
theorem Nesting.step_sound {cs : List Char} {before after : List Seen} {p : Seen} {n : Nesting}
    (hseen : seen cs = before ++ p :: after) (h : n.Sound before) :
    ∃ n', n.step cs p = .ok n' ∧ n'.Sound (before ++ [p]) := by
  obtain ⟨side, j⟩ := p
  obtain ⟨opened, depth, highest⟩ := n
  cases side with
  | opening =>
    refine ⟨⟨j :: opened, depth + 1, max highest (depth + 1)⟩, rfl, ?_, ?_⟩
    · intro i hi
      rcases List.mem_cons.1 hi with rfl | hi
      · simp
      · exact List.mem_append_left _ (h.opened_seen i hi)
    · have hdepth : depth = opened.length := h.depth_eq
      simp [hdepth]
  | closing =>
    cases opened with
    | nil => exact ⟨⟨[], depth, highest⟩, rfl, by simp, h.depth_eq⟩
    | cons i outer =>
      -- The offset on top of the stack was seen before this one, so the slice exists.
      obtain ⟨body, hbody⟩ := slice?_of_split hseen (h.opened_seen i List.mem_cons_self)
      have hdepth : depth = outer.length + 1 := h.depth_eq
      refine ⟨⟨outer, depth - 1, if mentionsSelect body then highest else highest - 1⟩, ?_, ?_, ?_⟩
      · simp only [Nesting.step, levelUp, between_of_slice? hbody]
        rw [if_neg (by omega)]
        rfl
      · intro k hk
        exact List.mem_append_left _ (h.opened_seen k (List.mem_cons_of_mem _ hk))
      · simp [hdepth]

/-- All parentheses up to any point of the text: the counter gets there and is sound. -/
theorem Nesting.run_sound {cs : List Char} {before ps after : List Seen} {n : Nesting}
    (hseen : seen cs = before ++ ps ++ after) (h : n.Sound before) :
    ∃ n', n.run cs ps = .ok n' ∧ n'.Sound (before ++ ps) := by
  induction ps generalizing before n with
  | nil => exact ⟨n, rfl, by rwa [List.append_nil]⟩
  | cons p ps ih =>
    have hfirst : seen cs = before ++ p :: (ps ++ after) := by simpa using hseen
    obtain ⟨n₁, hstep, hsound⟩ := Nesting.step_sound hfirst h
    have hrest : seen cs = (before ++ [p]) ++ ps ++ after := by simpa using hseen
    obtain ⟨n₂, hrun, hsound₂⟩ := ih hrest hsound
    refine ⟨n₂, ?_, by simpa using hsound₂⟩
    rw [Nesting.run, hstep]
    exact hrun

/-- The nesting depth of a text can always be counted. -/
theorem selectDepth_ok (cs : List Char) : ∃ depth, selectDepth cs = .ok depth := by
  have hall : seen cs = [] ++ seen cs ++ [] := by simp
  obtain ⟨n, hrun, -⟩ := Nesting.run_sound hall Nesting.start_sound
  refine ⟨n.highest, ?_⟩
  rw [selectDepth, hrun]
  rfl

/-! ## Groups -/

/-- Every group is closed by a parenthesis seen after the one that opened it. -/
theorem mem_groupsFrom {opened : List Nat} {before ps : List Seen}
    (hopened : ∀ i ∈ opened, ⟨.opening, i⟩ ∈ before) {g : Group} (hg : g ∈ groupsFrom opened ps) :
    ∃ b a, before ++ ps = b ++ ⟨.closing, g.stop⟩ :: a ∧ ⟨.opening, g.start⟩ ∈ b := by
  induction ps generalizing opened before with
  | nil => cases hg
  | cons p ps ih =>
    have hmore : before ++ p :: ps = (before ++ [p]) ++ ps := by simp
    obtain ⟨side, j⟩ := p
    cases side with
    | opening =>
      rw [groupsFrom] at hg
      rw [hmore]
      refine ih ?_ hg
      intro i hi
      rcases List.mem_cons.1 hi with rfl | hi
      · simp
      · exact List.mem_append_left _ (hopened i hi)
    | closing =>
      cases opened with
      | nil =>
        rw [groupsFrom] at hg
        rw [hmore]
        exact ih (by simp) hg
      | cons i outer =>
        rw [groupsFrom] at hg
        -- The group closed here, or one closed later with this one off the stack.
        rcases List.mem_cons.1 hg with rfl | hg
        · exact ⟨before, ps, rfl, hopened i List.mem_cons_self⟩
        · rw [hmore]
          refine ih ?_ hg
          intro k hk
          exact List.mem_append_left _ (hopened k (List.mem_cons_of_mem _ hk))

theorem mem_groups {cs : List Char} {g : Group} (hg : g ∈ groups cs) :
    ∃ before after, seen cs = before ++ ⟨.closing, g.stop⟩ :: after ∧
      ⟨.opening, g.start⟩ ∈ before := by
  have hnone : ∀ i ∈ ([] : List Nat), (⟨.opening, i⟩ : Seen) ∈ ([] : List Seen) := by simp
  obtain ⟨before, after, hseen, hopen⟩ := mem_groupsFrom hnone hg
  exact ⟨before, after, hseen, hopen⟩

/-- The text inside a group can always be cut out. -/
theorem Group.body_ok {cs : List Char} {g : Group} (hg : g ∈ groups cs) :
    ∃ body, g.body cs = .ok body := by
  obtain ⟨before, after, hseen, hopen⟩ := mem_groups hg
  obtain ⟨body, hbody⟩ := slice?_of_split hseen hopen
  exact ⟨body, between_of_slice? hbody⟩

end QueryLint.Paren

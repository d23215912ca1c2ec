/-
  QueryLint.Proofs.Octets

  Texts and their octets. Compared octet by octet, texts stand in the order of their code points
  (`octets_lt_octets_iff`), and a text that begins or ends with the octets of another begins or
  ends with its characters (`octets_prefix_iff`, `octets_suffix_iff`).

  The order is decided at the first character that differs, and there within its octets
  (`encodeChar_append_lt`): a longer character has the greater first octet, and characters of one
  length differ first in the same digit to base 64. For suffixes, the first octet of a character
  is never one of its later octets, so no text begins in the middle of a character.
-/
import QueryLint.Text.Utf8
import Mathlib.Data.Char
import Mathlib.Data.List.Lex
import Mathlib.Tactic.SplitIfs

namespace QueryLint.Text

/-! ## One character -/

/-- Of two numbers the greater has the greater digit to base 64 where they first differ. -/
theorem digit_lt {v w : Nat} (h : v < w) :
    v / 64 < w / 64 ∨ v / 64 = w / 64 ∧ v % 64 < w % 64 := by
  omega

/-- The digits of a number that takes four of them. -/
theorem four_digits_lt {v w : Nat} (h : v < w) :
    v / 262144 < w / 262144 ∨ v / 262144 = w / 262144 ∧
      (v / 4096 % 64 < w / 4096 % 64 ∨ v / 4096 % 64 = w / 4096 % 64 ∧
        (v / 64 % 64 < w / 64 % 64 ∨ v / 64 % 64 = w / 64 % 64 ∧ v % 64 < w % 64)) := by
  have hsquare : ∀ n : Nat, n / 64 / 64 = n / 4096 := fun n => Nat.div_div_eq_div_mul n 64 64
  have hcube : ∀ n : Nat, n / 4096 / 64 = n / 262144 := fun n => Nat.div_div_eq_div_mul n 4096 64
  rcases digit_lt h with h | ⟨heq, hlast⟩
  · rcases digit_lt h with h | ⟨heq, hthird⟩
    · rw [hsquare, hsquare] at h
      rcases digit_lt h with h | ⟨heq, hsecond⟩
      · rw [hcube, hcube] at h
        exact .inl h
      · rw [hcube, hcube] at heq
        exact .inr ⟨heq, .inl hsecond⟩
    · rw [hsquare, hsquare] at heq
      exact .inr ⟨by omega, .inr ⟨by omega, .inl hthird⟩⟩
  · exact .inr ⟨by omega, .inr ⟨by omega, .inr ⟨by omega, hlast⟩⟩⟩

/-- Octets in the order of a character decide, whatever comes after. -/
theorem encodeChar_append_lt {c d : Char} (h : c < d) (x y : List UInt8) :
    String.utf8EncodeChar c ++ x < String.utf8EncodeChar d ++ y := by
  have hlt : c.val.toNat < d.val.toNat := h
  have hdigits := four_digits_lt hlt
  have hbound : d.val.toNat < 1114112 := by
    rcases d.valid with hlow | ⟨-, hhigh⟩
    · omega
    · exact hhigh
  have hlead : c.val.toNat / 262144 % 8 = c.val.toNat / 262144 ∧
      d.val.toNat / 262144 % 8 = d.val.toNat / 262144 := by
    omega
  have hoctet : ∀ n, n < 256 → (UInt8.ofNat n).toNat = n := fun n => UInt8.toNat_ofNat_of_lt'
  simp only [String.utf8EncodeChar, hlead]
  -- One case for each pair of lengths; where the lengths differ, the first octets decide.
  split_ifs <;>
    simp (disch := omega) only [List.cons_append, List.nil_append, List.cons_lt_cons_iff,
      UInt8.lt_iff_toNat_lt, ← UInt8.toNat_inj, hoctet] <;>
    omega

/-- The octets of a text tell where its first character ends. -/
theorem encodeChar_append_inj {c d : Char} {x y : List UInt8}
    (h : String.utf8EncodeChar c ++ x = String.utf8EncodeChar d ++ y) : c = d ∧ x = y := by
  rcases lt_trichotomy c d with hlt | rfl | hgt
  · have := encodeChar_append_lt hlt x y
    rw [h] at this
    exact absurd this (List.lt_irrefl _)
  · exact ⟨rfl, List.append_cancel_left h⟩
  · have := encodeChar_append_lt hgt y x
    rw [h] at this
    exact absurd this (List.lt_irrefl _)

/-- No text begins with a later octet of a character. -/
theorem drop_encodeChar_ne {c : Char} {n : Nat} (hpos : 0 < n)
    (hn : n < (String.utf8EncodeChar c).length) (x : List UInt8) {b : List Char} (hb : b ≠ []) :
    (String.utf8EncodeChar c).drop n ++ x ≠ octets b := by
  obtain ⟨d, b, rfl⟩ := List.exists_cons_of_ne_nil hb
  intro h
  have hlength : 0 < (String.utf8EncodeChar d).length :=
    List.length_pos_iff.2 String.utf8EncodeChar_ne_nil
  have hhead : (String.utf8EncodeChar c)[n] = (String.utf8EncodeChar d)[0] := by
    rw [List.drop_eq_getElem_cons hn, octets_cons] at h
    have hfirst := congrArg List.head? h
    rw [List.cons_append, List.head?_cons, List.head?_append, List.head?_eq_getElem?,
      List.getElem?_eq_getElem hlength] at hfirst
    exact Option.some.inj hfirst
  have hfirst : (String.utf8EncodeChar c)[n].IsUTF8FirstByte := by
    rw [hhead]
    exact UInt8.isUTF8FirstByte_getElem_zero_utf8EncodeChar
  have hzero := UInt8.isUTF8FirstByte_getElem_utf8EncodeChar.1 hfirst
  omega

/-! ## Texts -/

theorem octets_inj {a b : List Char} : octets a = octets b ↔ a = b := by
  refine ⟨fun h => ?_, congrArg octets⟩
  induction a generalizing b with
  | nil =>
    cases b with
    | nil => rfl
    | cons d b => exact absurd h.symm (by simp)
  | cons c a ih =>
    cases b with
    | nil => exact absurd h (by simp)
    | cons d b =>
      obtain ⟨rfl, hrest⟩ := encodeChar_append_inj h
      rw [ih hrest]

theorem octets_prefix_iff {a b : List Char} : octets a <+: octets b ↔ a <+: b := by
  constructor
  · rintro ⟨x, hx⟩
    induction a generalizing b with
    | nil => exact List.nil_prefix
    | cons c a ih =>
      cases b with
      | nil => exact absurd hx (by simp)
      | cons d b =>
        rw [octets_cons, octets_cons, List.append_assoc] at hx
        obtain ⟨rfl, hrest⟩ := encodeChar_append_inj hx
        exact List.cons_prefix_cons.2 ⟨rfl, ih hrest⟩
  · rintro ⟨m, rfl⟩
    rw [octets_append]
    exact List.prefix_append ..

theorem octets_suffix_iff {a b : List Char} : octets a <:+ octets b ↔ a <:+ b := by
  constructor
  · rintro ⟨x, hx⟩
    induction b generalizing x with
    | nil =>
      rw [octets_nil, List.append_eq_nil_iff] at hx
      obtain rfl := octets_inj.1 (hx.2.trans octets_nil.symm)
      exact List.suffix_rfl
    | cons d b ih =>
      by_cases ha : a = []
      · rw [ha]
        exact List.nil_suffix
      · rw [octets_cons] at hx
        rcases Nat.lt_or_ge x.length (String.utf8EncodeChar d).length with hshort | hlong
        · rcases Nat.eq_zero_or_pos x.length with hzero | hpos
          · -- Nothing stands before, so the texts are the same.
            rw [List.length_eq_zero_iff.1 hzero, List.nil_append, ← octets_cons] at hx
            obtain rfl := octets_inj.1 hx
            exact List.suffix_rfl
          · -- The text would begin within the first character.
            have hrest := congrArg (List.drop x.length) hx
            rw [List.drop_left, List.drop_append_of_le_length hshort.le] at hrest
            exact absurd hrest.symm (drop_encodeChar_ne hpos hshort _ ha)
        · obtain ⟨y, rfl⟩ : String.utf8EncodeChar d <+: x :=
            List.prefix_of_prefix_length_le (List.prefix_append ..) (hx ▸ List.prefix_append ..)
              hlong
          rw [List.append_assoc] at hx
          exact (ih y (List.append_cancel_left hx)).trans (List.suffix_cons d b)
  · rintro ⟨m, rfl⟩
    rw [octets_append]
    exact List.suffix_append ..

theorem append_lt_append_iff (x y z : List UInt8) : x ++ y < x ++ z ↔ y < z := by
  induction x with
  | nil => exact Iff.rfl
  | cons b x ih =>
    rw [List.cons_append, List.cons_append, List.cons_lt_cons_iff, ih]
    simp

/-- Octet by octet, texts stand in the order of their code points. -/
theorem octets_lt_octets_iff {a b : List Char} : octets a < octets b ↔ a < b := by
  induction a generalizing b with
  | nil =>
    cases b with
    | nil => simp
    | cons d b =>
      obtain ⟨o, os, hos⟩ := List.exists_cons_of_ne_nil (@String.utf8EncodeChar_ne_nil d)
      rw [octets_cons, hos]
      exact iff_of_true (List.nil_lt_cons ..) (List.nil_lt_cons ..)
  | cons c a ih =>
    cases b with
    | nil => simp
    | cons d b =>
      rw [List.cons_lt_cons_iff, octets_cons, octets_cons]
      rcases lt_trichotomy c d with hlt | rfl | hgt
      · exact iff_of_true (encodeChar_append_lt hlt _ _) (.inl hlt)
      · simp [append_lt_append_iff, ih]
      · refine iff_of_false (List.lt_asymm (encodeChar_append_lt hgt _ _)) ?_
        rintro (hlt | ⟨rfl, -⟩)
        · exact lt_asymm hgt hlt
        · exact lt_irrefl _ hgt

end QueryLint.Text

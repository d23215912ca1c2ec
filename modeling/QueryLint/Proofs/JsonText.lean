/-
  QueryLint.Proofs.JsonText

  What is written as JSON is read back. Texts survive their escapes (`unescape?_escape`) and
  natural numbers their digits (`toNat?_ofNat`), and a document made of them is found again by
  the parser (`parse?_print`).

  The parser is followed over a value and whatever may stand behind it, which is a comma, a
  line break or the end (`Ends`). The induction is over the documents that values are turned
  into (`Written`): numbers in decimal, strings and names as escaped texts. The fuel of the
  parser is counted against the length of the text.
-/
import QueryLint.Json.Parser
import QueryLint.Json.Printer

namespace QueryLint.Json

open QueryLint.Text

/-! ## Texts -/

theorem ofHex?_hexDigits {n : Nat} (h : n < 0x20) :
    ofHex? ['0', '0', hexDigit (n / 16), hexDigit (n % 16)] = some n := by
  revert n
  decide

theorem isHex_hexDigits {n : Nat} (h : n < 0x20) :
    ['0', '0', hexDigit (n / 16), hexDigit (n % 16)].all isHex = true := by
  revert n
  decide

/-- A backslash and a letter for it stand for the character that is escaped by the letter. -/
structure IsSimple (c e : Char) : Prop where
  written : escapeChar c = ['\\', e]
  notUnit : e ≠ 'u'
  read : simpleEscape? e = some c

/-- The three ways a character is written. -/
theorem escapeChar_cases (c : Char) :
    (∃ e, IsSimple c e) ∨
    (c.toNat < 0x20 ∧ escapeChar c =
      ['\\', 'u', '0', '0', hexDigit (c.toNat / 16), hexDigit (c.toNat % 16)]) ∨
    (¬ c.toNat < 0x20 ∧ c ≠ '"' ∧ c ≠ '\\' ∧ escapeChar c = [c]) := by
  by_cases hletter : c ∈ ['"', '\\', '\x08', '\x0c', '\n', '\r', '\t']
  · left
    simp only [List.mem_cons, List.not_mem_nil, or_false] at hletter
    rcases hletter with rfl | rfl | rfl | rfl | rfl | rfl | rfl
    · exact ⟨'"', rfl, by decide, rfl⟩
    · exact ⟨'\\', rfl, by decide, rfl⟩
    · exact ⟨'b', rfl, by decide, rfl⟩
    · exact ⟨'f', rfl, by decide, rfl⟩
    · exact ⟨'n', rfl, by decide, rfl⟩
    · exact ⟨'r', rfl, by decide, rfl⟩
    · exact ⟨'t', rfl, by decide, rfl⟩
  · right
    simp only [List.mem_cons, List.not_mem_nil, or_false, not_or] at hletter
    by_cases hcontrol : c.toNat < 0x20
    · exact .inl ⟨hcontrol, by simp [escapeChar, hletter, hcontrol]⟩
    · exact .inr ⟨hcontrol, hletter.1, hletter.2.1, by simp [escapeChar, hletter, hcontrol]⟩

theorem stringBody_letter {e : Char} (hunit : e ≠ 'u') (he : (simpleEscape? e).isSome = true)
    (cs : List Char) :
    stringBody ('\\' :: e :: cs) = (stringBody cs).map fun r => ('\\' :: e :: r.1, r.2) := by
  rw [stringBody, if_pos he]
  exact fun _ _ _ _ _ h => absurd h hunit

theorem stringBody_plain {c : Char} (hcontrol : ¬ c.toNat < 0x20) (hquote : c ≠ '"')
    (hslash : c ≠ '\\') (cs : List Char) :
    stringBody (c :: cs) = (stringBody cs).map fun r => (c :: r.1, r.2) := by
  rw [stringBody, if_neg (by simp [hcontrol, hslash])]
  · exact hquote
  · exact fun _ _ _ _ _ h => absurd h hslash
  · exact fun _ _ h => absurd h hslash

/-- One written character is read as it is. -/
theorem stringBody_escapeChar (c : Char) (cs : List Char) :
    stringBody (escapeChar c ++ cs) =
      (stringBody cs).map fun r => (escapeChar c ++ r.1, r.2) := by
  rcases escapeChar_cases c with ⟨e, he⟩ | ⟨hcontrol, he⟩ | ⟨hcontrol, hquote, hslash, he⟩
  · rw [he.written]
    exact stringBody_letter he.notUnit (by rw [he.read]; rfl) cs
  · rw [he]
    simp only [List.cons_append, List.nil_append, stringBody]
    rw [if_pos (isHex_hexDigits hcontrol)]
  · rw [he]
    exact stringBody_plain hcontrol hquote hslash cs

/-- A written text is read as it is, up to the quote behind it. -/
theorem stringBody_escape (cs rest : List Char) :
    stringBody (escape cs ++ '"' :: rest) = some (escape cs, rest) := by
  induction cs with
  | nil => rfl
  | cons c cs ih =>
    rw [escape, List.flatMap_cons, List.append_assoc, stringBody_escapeChar, ← escape, ih]
    rfl

theorem units?_letter {e : Char} (hunit : e ≠ 'u') (cs : List Char) :
    units? ('\\' :: e :: cs) =
      (simpleEscape? e).bind fun c => (units? cs).map fun us => c.toNat :: us := by
  rw [units?]
  · cases simpleEscape? e <;> cases units? cs <;> rfl
  · exact fun _ _ _ _ _ h => absurd h hunit

theorem units?_plain {c : Char} (hslash : c ≠ '\\') (cs : List Char) :
    units? (c :: cs) = (units? cs).map fun us => c.toNat :: us := by
  rw [units?]
  · cases units? cs <;> rfl
  · exact fun _ _ _ _ _ h => absurd h hslash
  · exact fun _ _ h => absurd h hslash

/-- A written character stands for its code point. -/
theorem units?_escapeChar (c : Char) (cs : List Char) :
    units? (escapeChar c ++ cs) = (units? cs).map fun us => c.toNat :: us := by
  rcases escapeChar_cases c with ⟨e, he⟩ | ⟨hcontrol, he⟩ | ⟨hcontrol, hquote, hslash, he⟩
  · rw [he.written, List.cons_append, List.cons_append, units?_letter he.notUnit, he.read]
    rfl
  · rw [he]
    simp only [List.cons_append, List.nil_append, units?, ofHex?_hexDigits hcontrol]
    cases units? cs <;> rfl
  · rw [he]
    exact units?_plain hslash cs

theorem units?_escape (cs : List Char) : units? (escape cs) = some (cs.map Char.toNat) := by
  induction cs with
  | nil => rfl
  | cons c cs ih =>
    rw [escape, List.flatMap_cons, units?_escapeChar, ← escape, ih]
    rfl

/-- A code point is no half of a surrogate pair. -/
theorem not_surrogate (c : Char) : isLeading c.toNat = false ∧ isTrailing c.toNat = false := by
  have hvalid : c.toNat < 0xD800 ∨ (0xDFFF < c.toNat ∧ c.toNat < 0x110000) := c.valid
  simp only [isLeading, isTrailing, Bool.and_eq_false_iff, decide_eq_false_iff_not]
  omega

theorem joinUnits?_map_toNat (cs : List Char) : joinUnits? (cs.map Char.toNat) = some cs := by
  induction cs with
  | nil => rfl
  | cons c cs ih =>
    obtain ⟨hleading, htrailing⟩ := not_surrogate c
    rw [List.map_cons, joinUnits?.eq_def]
    simp [hleading, htrailing, ih, Char.ofNat_toNat]

/-- A text is what its escapes stand for. -/
@[simp] theorem unescape?_escape (cs : List Char) : unescape? (escape cs) = some cs := by
  rw [unescape?, units?_escape, Option.bind_some, joinUnits?_map_toNat]

@[simp] theorem toText?_ofText (s : String) : (ofText s).toText? = some s := by
  rw [ofText, toText?, unescape?_escape, Option.map_some, String.ofList_toList]

@[simp] theorem variantName?_ofText (s : String) : (ofText s).variantName? = some s := by
  rw [ofText, variantName?, unescape?_escape, Option.map_some, String.ofList_toList]

/-! ## Numbers -/

theorem isDigit_of_mem_decimal {n : Nat} {c : Char} (h : c ∈ decimal n) : c.isDigit = true :=
  Nat.isDigit_of_mem_toDigits (by omega) (by omega) h

theorem ofDecimal_decimal (n : Nat) : ofDecimal (decimal n) = n :=
  Nat.ofDigitChars_ten_toDigits

@[simp] theorem toNat?_ofNat {n bound : Nat} (h : n < bound) :
    (ofNat n).toNat? bound = some n := by
  have hdigits : (decimal n).all Char.isDigit = true :=
    List.all_eq_true.2 fun _ hc => isDigit_of_mem_decimal hc
  rw [ofNat, toNat?, naturalOf?, if_pos hdigits, ofDecimal_decimal, Option.filter_some]
  simp [h]

/-- Only the digits of zero begin with a zero. -/
theorem eq_nil_of_decimal_eq_zero {n : Nat} {ds : List Char} (h : decimal n = '0' :: ds) :
    ds = [] := by
  induction n using Nat.strongRecOn generalizing ds with
  | ind n ih =>
    by_cases hn : n < 10
    · rw [decimal, Nat.toDigits_of_lt_base hn] at h
      injection h with _ hds
      exact hds.symm
    · rw [decimal, Nat.toDigits_of_base_le (by omega) (by omega)] at h
      -- The digits of a tenth of it would be those of zero.
      cases hfront : decimal (n / 10) with
      | nil => exact absurd hfront Nat.toDigits_ne_nil
      | cons d front =>
        rw [← decimal, hfront] at h
        injection h with hd _
        subst hd
        have hzero := ih (n / 10) (by omega) hfront
        subst hzero
        have htenth : n / 10 = 0 := by
          rw [← ofDecimal_decimal (n / 10), hfront]
          rfl
        omega

/-- What may stand behind a value: nothing, a comma, or a line break. -/
def Ends (cs : List Char) : Prop :=
  ∀ c ∈ cs.head?, c = ',' ∨ c = '\n'

theorem Ends.not_isDigit {cs : List Char} (h : Ends cs) : cs.head?.any Char.isDigit = false := by
  cases cs with
  | nil => rfl
  | cons c cs => rcases h c rfl with rfl | rfl <;> rfl

theorem takeWhile_isDigit_append {ds cs : List Char} (hds : ∀ c ∈ ds, c.isDigit = true)
    (hcs : cs.head?.any Char.isDigit = false) : (ds ++ cs).takeWhile Char.isDigit = ds := by
  rw [List.takeWhile_append_of_pos hds]
  cases cs with
  | nil => simp
  | cons c cs => simp_all

theorem dropWhile_isDigit_append {ds cs : List Char} (hds : ∀ c ∈ ds, c.isDigit = true)
    (hcs : cs.head?.any Char.isDigit = false) : (ds ++ cs).dropWhile Char.isDigit = cs := by
  rw [List.dropWhile_append_of_pos hds]
  cases cs with
  | nil => rfl
  | cons c cs => simp_all

theorem digits_append {ds cs : List Char} (hne : ds ≠ []) (hds : ∀ c ∈ ds, c.isDigit = true)
    (hcs : cs.head?.any Char.isDigit = false) : digits (ds ++ cs) = some (ds, cs) := by
  rw [digits, takeWhile_isDigit_append hds hcs, dropWhile_isDigit_append hds hcs]
  split
  · exact absurd rfl hne
  · rfl

/-- A digit is none of the characters that are no digits. -/
theorem ne_of_isDigit {c x : Char} (hc : c.isDigit = true) (hx : x.isDigit = false) : c ≠ x := by
  rintro rfl
  rw [hc] at hx
  cases hx

theorem wholePart_decimal (n : Nat) {cs : List Char} (hcs : cs.head?.any Char.isDigit = false) :
    wholePart (decimal n ++ cs) = some (decimal n, cs) := by
  have hdigits : digits (decimal n ++ cs) = some (decimal n, cs) :=
    digits_append Nat.toDigits_ne_nil (fun _ => isDigit_of_mem_decimal) hcs
  unfold wholePart
  split
  · rename_i rest heq
    -- The number begins with a zero, so it is zero.
    cases hn : decimal n with
    | nil => exact absurd hn Nat.toDigits_ne_nil
    | cons d ds =>
      rw [hn, List.cons_append] at heq
      injection heq with hd hrest
      subst hd
      have hds := eq_nil_of_decimal_eq_zero hn
      subst hds
      rw [← hrest, List.nil_append, hcs]
      rfl
  · exact hdigits

/-- A natural number is read as it is written, up to what may stand behind a value. -/
theorem numberLiteral_decimal (n : Nat) {cs : List Char} (h : Ends cs) :
    numberLiteral (decimal n ++ cs) = some (decimal n, cs) := by
  have hwhole := wholePart_decimal n h.not_isDigit
  have hfraction : fractionPart cs = some ([], cs) := by
    unfold fractionPart
    split
    · rcases h '.' rfl with hpoint | hpoint <;> cases hpoint
    · rfl
  have hexponent : exponentPart cs = some ([], cs) := by
    cases cs with
    | nil => rfl
    | cons c cs => rcases h c rfl with rfl | rfl <;> rfl
  have hunsigned : unsigned (decimal n ++ cs) = some (decimal n, cs) := by
    simp [unsigned, hwhole, hfraction, hexponent]
  unfold numberLiteral
  split
  · rename_i rest heq
    -- No digit is a sign.
    have hmem : '-' ∈ decimal n := by
      cases hn : decimal n with
      | nil => exact absurd hn Nat.toDigits_ne_nil
      | cons d ds =>
        rw [hn, List.cons_append] at heq
        injection heq with hd _
        exact hd ▸ List.mem_cons_self
    exact absurd rfl (ne_of_isDigit (isDigit_of_mem_decimal hmem) (by decide))
  · exact hunsigned

/-! ## Blanks -/

/-- The text is nothing but blanks. -/
def Blank (cs : List Char) : Prop :=
  ∀ c ∈ cs, isSpace c = true

theorem blank_nil : Blank [] := by
  simp [Blank]

theorem blank_newLine (indent : Nat) : Blank (newLine indent) := by
  intro c hc
  rcases List.mem_cons.1 hc with rfl | hc
  · rfl
  · rw [List.eq_of_mem_replicate hc]
    rfl

theorem skip_append {g : List Char} (hg : Blank g) (cs : List Char) : skip (g ++ cs) = skip cs :=
  List.dropWhile_append_of_pos hg

theorem skip_visible {c : Char} (hc : isSpace c = false) (cs : List Char) :
    skip (c :: cs) = c :: cs :=
  List.dropWhile_cons_of_neg (by simp [hc])

theorem value_append {g : List Char} (hg : Blank g) (fuel : Nat) (cs : List Char) :
    value fuel (g ++ cs) = value fuel cs := by
  cases fuel with
  | zero => rfl
  | succ fuel => simp only [value, skip_append hg]

/-! ## Documents -/

/-- The documents that values are turned into: numbers are natural numbers in decimal, and
    strings and names are escaped texts. -/
inductive Written : Json → Prop
  | null : Written .null
  | bool (b : Bool) : Written (.bool b)
  | number (n : Nat) : Written (.number (decimal n))
  | string (cs : List Char) : Written (.string (escape cs))
  | array {items : List Json} : (∀ x ∈ items, Written x) → Written (.array items)
  | object {members : List (List Char × Json)} :
    (∀ m ∈ members, ∃ cs, m.1 = escape cs) → (∀ m ∈ members, Written m.2) →
      Written (.object members)

/-- A written value begins with a character that is no blank and closes no array. -/
theorem Written.begins {v : Json} (h : Written v) (indent : Nat) :
    ∃ c cs, pretty indent v = c :: cs ∧ isSpace c = false ∧ c ≠ ']' := by
  cases h with
  | null => exact ⟨_, _, rfl, rfl, by decide⟩
  | bool b => cases b <;> exact ⟨_, _, by rw [pretty], rfl, by decide⟩
  | number n =>
    cases hn : decimal n with
    | nil => exact absurd hn Nat.toDigits_ne_nil
    | cons d ds =>
      have hd : d.isDigit = true := isDigit_of_mem_decimal (hn ▸ List.mem_cons_self)
      refine ⟨d, ds, by rw [pretty], ?_, ne_of_isDigit hd rfl⟩
      simp [isSpace, ne_of_isDigit hd (x := ' ') rfl, ne_of_isDigit hd (x := '\n') rfl,
        ne_of_isDigit hd (x := '\t') rfl, ne_of_isDigit hd (x := '\r') rfl]
  | string cs => exact ⟨_, _, by rw [pretty]; rfl, rfl, by decide⟩
  | @array items =>
    cases items with
    | nil => exact ⟨_, _, by rw [pretty], rfl, by decide⟩
    | cons x xs => exact ⟨_, _, by rw [pretty]; rfl, rfl, by decide⟩
  | @object members =>
    cases members with
    | nil => exact ⟨_, _, by rw [pretty], rfl, by decide⟩
    | cons m ms => exact ⟨_, _, by rw [pretty]; rfl, rfl, by decide⟩

/-- The reader finds the value behind any blanks, and stops behind it. -/
def ReadsBack (item : Reader Json) (written : List Char) (v : Json) : Prop :=
  ∀ g rest, Blank g → Ends rest → item (g ++ (written ++ rest)) = some (v, rest)

theorem ends_newLine (indent : Nat) (cs : List Char) : Ends (newLine indent ++ cs) := by
  intro c hc
  cases hc
  exact .inr rfl

theorem ends_prettyItems (indent close : Nat) (xs : List Json) (cs : List Char) :
    Ends (prettyItems indent xs ++ (newLine close ++ cs)) := by
  cases xs with
  | nil => exact ends_newLine close cs
  | cons x xs =>
    rw [prettyItems]
    intro c hc
    cases hc
    exact .inl rfl

theorem ends_prettyMembers (indent close : Nat) (ms : List (List Char × Json)) (cs : List Char) :
    Ends (prettyMembers indent ms ++ (newLine close ++ cs)) := by
  cases ms with
  | nil => exact ends_newLine close cs
  | cons m ms =>
    rw [prettyMembers]
    intro c hc
    cases hc
    exact .inl rfl

/-- The items of an array are read back, if each is. -/
theorem arrayItems_pretty {item : Reader Json} {indent fuel : Nat} (close : Nat) {x : Json}
    {xs : List Json} (hitem : ∀ y ∈ x :: xs, ReadsBack item (pretty indent y) y)
    (hfuel : xs.length < fuel) {g : List Char} (hg : Blank g) (rest : List Char) :
    arrayItems item fuel
        (g ++ (pretty indent x ++ (prettyItems indent xs ++ (newLine close ++ ']' :: rest)))) =
      some (x :: xs, rest) := by
  induction xs generalizing x fuel g with
  | nil =>
    obtain ⟨fuel, rfl⟩ := Nat.exists_eq_succ_of_ne_zero (by omega : fuel ≠ 0)
    have hfirst := hitem x List.mem_cons_self g _ hg
      (ends_prettyItems indent close [] (']' :: rest))
    have hclose : skip (newLine close ++ ']' :: rest) = ']' :: rest := by
      rw [skip_append (blank_newLine close), skip_visible (by decide)]
    rw [prettyItems, List.nil_append] at hfirst ⊢
    simp [arrayItems, hfirst, hclose]
  | cons y ys ih =>
    obtain ⟨fuel, rfl⟩ := Nat.exists_eq_succ_of_ne_zero (by omega : fuel ≠ 0)
    have hfirst := hitem x List.mem_cons_self g _ hg
      (ends_prettyItems indent close (y :: ys) (']' :: rest))
    have hshorter : ys.length < fuel := by
      rw [List.length_cons] at hfuel
      omega
    have hothers := ih (fun z hz => hitem z (List.mem_cons_of_mem _ hz)) hshorter
      (blank_newLine indent)
    rw [prettyItems, List.cons_append, List.cons_append, List.cons_append] at hfirst ⊢
    simp only [List.append_assoc] at hfirst hothers ⊢
    simp [arrayItems, hfirst, skip_visible (c := ',') (by decide), hothers]

/-- A member of an object is read back, if its value is. -/
theorem member_pretty {item : Reader Json} {indent : Nat} (name : List Char) {x : Json}
    (hitem : ReadsBack item (pretty indent x) x) {g rest : List Char} (hg : Blank g)
    (hrest : Ends rest) :
    member item (g ++ (prettyName (escape name) ++ (pretty indent x ++ rest))) =
      some ((escape name, x), rest) := by
  have hname : skip (g ++ (prettyName (escape name) ++ (pretty indent x ++ rest))) =
      '"' :: (escape name ++ '"' :: ':' :: ([' '] ++ (pretty indent x ++ rest))) := by
    rw [skip_append hg, prettyName, List.cons_append, List.cons_append, skip_visible (by decide),
      List.append_assoc]
    rfl
  have hspace : Blank [' '] := by
    intro c hc
    rw [List.mem_singleton.1 hc]
    rfl
  have hcolon : skip (':' :: ([' '] ++ (pretty indent x ++ rest))) =
      ':' :: ([' '] ++ (pretty indent x ++ rest)) := skip_visible (by decide) _
  have hvalue := hitem [' '] rest hspace hrest
  simp only [member, hname, stringBody_escape, Option.bind_eq_bind, Option.bind_some, hcolon,
    hvalue]
  rfl

/-- The members of an object are read back, if each value is. -/
theorem objectMembers_pretty {item : Reader Json} {indent fuel : Nat} (close : Nat)
    {m : List Char × Json} {ms : List (List Char × Json)}
    (hname : ∀ n ∈ m :: ms, ∃ cs, n.1 = escape cs)
    (hitem : ∀ n ∈ m :: ms, ReadsBack item (pretty indent n.2) n.2)
    (hfuel : ms.length < fuel) {g : List Char} (hg : Blank g) (rest : List Char) :
    objectMembers item fuel
        (g ++ (prettyName m.1 ++ (pretty indent m.2 ++
          (prettyMembers indent ms ++ (newLine close ++ '\x7d' :: rest))))) =
      some (m :: ms, rest) := by
  induction ms generalizing m fuel g with
  | nil =>
    obtain ⟨fuel, rfl⟩ := Nat.exists_eq_succ_of_ne_zero (by omega : fuel ≠ 0)
    obtain ⟨cs, hcs⟩ := hname m List.mem_cons_self
    have hfirst := member_pretty cs (hitem m List.mem_cons_self) hg
      (ends_prettyMembers indent close [] ('\x7d' :: rest))
    have hclose : skip (newLine close ++ '\x7d' :: rest) = '\x7d' :: rest := by
      rw [skip_append (blank_newLine close), skip_visible (by decide)]
    rw [prettyMembers, List.nil_append] at hfirst ⊢
    rw [← hcs] at hfirst
    simp [objectMembers, hfirst, hclose]
  | cons n ns ih =>
    obtain ⟨fuel, rfl⟩ := Nat.exists_eq_succ_of_ne_zero (by omega : fuel ≠ 0)
    obtain ⟨cs, hcs⟩ := hname m List.mem_cons_self
    have hfirst := member_pretty cs (hitem m List.mem_cons_self) hg
      (ends_prettyMembers indent close (n :: ns) ('\x7d' :: rest))
    have hshorter : ns.length < fuel := by
      rw [List.length_cons] at hfuel
      omega
    have hothers := ih (fun k hk => hname k (List.mem_cons_of_mem _ hk))
      (fun k hk => hitem k (List.mem_cons_of_mem _ hk)) hshorter (blank_newLine indent)
    rw [prettyMembers, List.cons_append, List.cons_append, List.cons_append, List.cons_append]
      at hfirst ⊢
    rw [← hcs] at hfirst
    simp only [List.append_assoc] at hfirst hothers ⊢
    simp [objectMembers, hfirst, skip_visible (c := ',') (by decide), hothers]

/-! ## Fuel -/

/-- No item is longer than all of them, and each takes a character. -/
theorem length_prettyItems (indent : Nat) (xs : List Json) :
    xs.length ≤ (prettyItems indent xs).length ∧
      ∀ x ∈ xs, (pretty indent x).length ≤ (prettyItems indent xs).length := by
  induction xs with
  | nil => simp
  | cons y ys ih =>
    rw [prettyItems]
    simp only [List.length_cons, List.length_append, List.forall_mem_cons]
    refine ⟨by omega, by omega, fun x hx => ?_⟩
    have := ih.2 x hx
    omega

/-- No member is longer than all of them, and each takes a character. -/
theorem length_prettyMembers (indent : Nat) (ms : List (List Char × Json)) :
    ms.length ≤ (prettyMembers indent ms).length ∧
      ∀ m ∈ ms, (pretty indent m.2).length ≤ (prettyMembers indent ms).length := by
  induction ms with
  | nil => simp
  | cons n ns ih =>
    rw [prettyMembers]
    simp only [List.length_cons, List.length_append, List.forall_mem_cons]
    refine ⟨by omega, by omega, fun m hm => ?_⟩
    have := ih.2 m hm
    omega

theorem value_number (fuel n : Nat) {rest : List Char} (h : Ends rest) :
    value (fuel + 1) (decimal n ++ rest) = some (.number (decimal n), rest) := by
  obtain ⟨c, cs, hcs, hspace, -⟩ := (Written.number n).begins 0
  rw [pretty] at hcs
  have hc : c.isDigit = true := isDigit_of_mem_decimal (hcs ▸ List.mem_cons_self)
  have hnumber := numberLiteral_decimal n h
  rw [hcs, List.cons_append] at hnumber ⊢
  rw [value, skip_visible hspace]
  -- A digit begins nothing but a number.
  split
  case h_7 => rw [hnumber]; rfl
  all_goals
    rename_i heq
    injection heq with hhead _
    exact absurd hhead (ne_of_isDigit hc rfl)

theorem value_array {indent fuel : Nat} {items : List Json} (h : ∀ x ∈ items, Written x)
    (hread : ∀ x ∈ items, (pretty (indent + 2) x).length < fuel →
      ReadsBack (value fuel) (pretty (indent + 2) x) x)
    (hfuel : (pretty indent (.array items)).length < fuel + 1) (rest : List Char) :
    value (fuel + 1) (pretty indent (.array items) ++ rest) = some (.array items, rest) := by
  cases items with
  | nil =>
    rw [pretty, value]
    simp [skip_visible (c := '[') (by decide), skip_visible (c := ']') (by decide)]
  | cons x xs =>
    rw [pretty] at hfuel ⊢
    simp only [List.length_cons, List.length_append, List.length_nil] at hfuel
    obtain ⟨hcount, hlength⟩ := length_prettyItems (indent + 2) xs
    have hitem : ∀ y ∈ x :: xs, ReadsBack (value fuel) (pretty (indent + 2) y) y := by
      intro y hy
      apply hread y hy
      rcases List.mem_cons.1 hy with rfl | hy
      · omega
      · have := hlength y hy
        omega
    have hitems := arrayItems_pretty indent hitem (by omega : xs.length < fuel) blank_nil rest
    rw [List.nil_append] at hitems
    -- The first item begins the text behind the bracket, so the array is not empty.
    obtain ⟨c, cs, hcs, hspace, hne⟩ := (h x List.mem_cons_self).begins (indent + 2)
    simp only [List.cons_append, List.append_assoc, List.nil_append]
    rw [value, skip_visible (by decide)]
    simp only [skip_append (blank_newLine (indent + 2))]
    rw [hcs, List.cons_append] at hitems ⊢
    rw [skip_visible hspace]
    split
    · rename_i heq
      injection heq with hhead _
      exact absurd hhead hne
    · rw [hitems]
      rfl

theorem value_object {indent fuel : Nat} {members : List (List Char × Json)}
    (hname : ∀ m ∈ members, ∃ cs, m.1 = escape cs)
    (hread : ∀ m ∈ members, (pretty (indent + 2) m.2).length < fuel →
      ReadsBack (value fuel) (pretty (indent + 2) m.2) m.2)
    (hfuel : (pretty indent (.object members)).length < fuel + 1) (rest : List Char) :
    value (fuel + 1) (pretty indent (.object members) ++ rest) = some (.object members, rest) := by
  cases members with
  | nil =>
    rw [pretty, value]
    simp [skip_visible (c := '\x7b') (by decide), skip_visible (c := '\x7d') (by decide)]
  | cons m ms =>
    rw [pretty] at hfuel ⊢
    simp only [List.length_cons, List.length_append, List.length_nil] at hfuel
    obtain ⟨hcount, hlength⟩ := length_prettyMembers (indent + 2) ms
    have hitem : ∀ n ∈ m :: ms, ReadsBack (value fuel) (pretty (indent + 2) n.2) n.2 := by
      intro n hn
      apply hread n hn
      rcases List.mem_cons.1 hn with rfl | hn
      · omega
      · have := hlength n hn
        omega
    have hmembers := objectMembers_pretty indent hname hitem (by omega : ms.length < fuel)
      blank_nil rest
    rw [List.nil_append] at hmembers
    simp only [List.cons_append, List.append_assoc, List.nil_append]
    rw [value, skip_visible (by decide)]
    simp only [skip_append (blank_newLine (indent + 2))]
    -- The first name begins with its quote, so the object is not empty.
    rw [prettyName, List.cons_append, List.cons_append] at hmembers ⊢
    rw [skip_visible (by decide)]
    split
    · rename_i heq
      injection heq with hhead _
      exact absurd hhead (by decide)
    · rw [hmembers]
      rfl

/-- A value that is read with any fuel above the length of its text is read behind blanks too. -/
theorem readsBack_value {written : List Char} {v : Json}
    (h : ∀ fuel rest, written.length < fuel + 1 → Ends rest →
      value (fuel + 1) (written ++ rest) = some (v, rest))
    {fuel : Nat} (hfuel : written.length < fuel) : ReadsBack (value fuel) written v := by
  intro g rest hg hrest
  obtain ⟨fuel, rfl⟩ := Nat.exists_eq_succ_of_ne_zero (by omega : fuel ≠ 0)
  rw [value_append hg]
  exact h fuel rest hfuel hrest

/-- A written value is read back, given more fuel than its text is long. -/
theorem Written.value_pretty {v : Json} (h : Written v) (indent fuel : Nat) (rest : List Char)
    (hfuel : (pretty indent v).length < fuel + 1) (hrest : Ends rest) :
    value (fuel + 1) (pretty indent v ++ rest) = some (v, rest) := by
  induction h generalizing indent fuel rest with
  | null => simp [pretty, value, skip_visible, isSpace, stripWord?]
  | bool b => cases b <;> simp [pretty, value, skip_visible, isSpace, stripWord?]
  | number n =>
    rw [pretty]
    exact value_number fuel n hrest
  | string cs =>
    rw [pretty, List.cons_append, List.cons_append, List.append_assoc, List.singleton_append, value,
      skip_visible (by decide)]
    simp only [stringBody_escape]
    rfl
  | array hitems ih =>
    exact value_array hitems (fun x hx => readsBack_value (ih x hx (indent + 2))) hfuel rest
  | object hnames _ ih =>
    exact value_object hnames (fun m hm => readsBack_value (ih m hm (indent + 2))) hfuel rest

/-- A written document is read back from its text. -/
theorem parse?_print {v : Json} (h : Written v) : parse? v.print = some v := by
  have hvalue := h.value_pretty 0 (pretty 0 v).length [] (Nat.lt_succ_self _) (by simp [Ends])
  rw [List.append_nil] at hvalue
  simp only [parse?, print, String.toList_ofList]
  rw [hvalue]
  rfl

end QueryLint.Json

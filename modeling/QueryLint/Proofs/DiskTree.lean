/-
  QueryLint.Proofs.DiskTree

  A disk as a map from places to entries, and what following a path through it amounts to.
  All that a walk asks of a disk is what stands at places, and a walk to a directory only ever
  meets directories and links. `Leads` says step by step how it gets there, so what such a
  walk does is read off its rules instead of the walk: steps that lead to a directory lead on
  from there (`Leads.walk_append`), and still lead there when files come and go and when
  directories come where nothing stood (`Leads.mono`).
-/
import QueryLint.Disk.Files
import Mathlib.Data.List.Nodup

namespace QueryLint

/-! ## Places -/

namespace Place

theorem child_names_ne_nil (dir : Place) (name : String) : (dir.child name).names ≠ [] := by
  simp [child]

theorem child_inj {dir : Place} {a b : String} : dir.child a = dir.child b ↔ a = b := by
  simp [child]

/-- The names that stand directly inside a directory. -/
theorem eq_child_iff {p dir : Place} {name : String} :
    p = dir.child name ↔ p.names.getLast? = some name ∧ p.parent = dir := by
  constructor
  · rintro rfl
    simp [child, parent]
  · rintro ⟨hlast, rfl⟩
    have hne : p.names ≠ [] := by
      intro h
      rw [h] at hlast
      cases hlast
    have hwhole := List.dropLast_append_getLast? name hlast
    simp [child, parent, hne, hwhole]

end Place

namespace Disk

/-! ## A disk as a map -/

theorem lookup_filter_ne (es : List (Place × Entry)) (p q : Place) :
    (es.filter (·.1 ≠ p)).lookup q = if q = p then none else es.lookup q := by
  induction es with
  | nil => simp
  | cons e es ih =>
    obtain ⟨k, entry⟩ := e
    by_cases hk : k = p
    · rw [List.filter_cons_of_neg (by simp [hk]), ih, List.lookup_cons, hk]
      by_cases hq : q = p
      · rw [if_pos hq, if_pos hq]
      · rw [if_neg hq, if_neg hq, beq_false_of_ne hq]
    · rw [List.filter_cons_of_pos (by simp [hk]), List.lookup_cons, List.lookup_cons, ih]
      by_cases hq : q = k
      · subst hq
        simp only [beq_self_eq_true, if_neg hk]
      · rw [beq_false_of_ne hq]

theorem get?_erase {p : Place} (hp : p.names ≠ []) (d : Disk) (q : Place) :
    (d.erase p).get? q = if q = p then none else d.get? q := by
  rw [get?, get?, erase, lookup_filter_ne]
  by_cases hq : q = p
  · subst hq
    simp [hp]
  · rw [if_neg hq, if_neg hq]

theorem get?_put (d : Disk) {p : Place} {entry : Entry} (hp : p.IsProper) (hentry : entry.IsProper)
    (q : Place) : (d.put p entry hp hentry).get? q = if q = p then some entry else d.get? q := by
  rw [get?, get?, put, List.lookup_append, lookup_filter_ne]
  by_cases hq : q = p
  · subst hq
    simp [hp.below]
  · rw [if_neg hq, if_neg hq, List.lookup_cons, beq_false_of_ne hq]
    simp

theorem lookup_eq_some_iff {es : List (Place × Entry)} (h : (es.map Prod.fst).Nodup) {p : Place}
    {entry : Entry} : es.lookup p = some entry ↔ (p, entry) ∈ es := by
  induction es with
  | nil => simp
  | cons e es ih =>
    obtain ⟨k, x⟩ := e
    rw [List.map_cons, List.nodup_cons] at h
    rw [List.lookup_cons, List.mem_cons, Prod.mk.injEq]
    by_cases hp : p = k
    · subst hp
      rw [beq_self_eq_true]
      constructor
      · intro heq
        cases heq
        exact .inl ⟨rfl, rfl⟩
      · rintro (⟨-, rfl⟩ | hmem)
        · rfl
        · exact absurd (List.mem_map_of_mem (f := Prod.fst) hmem) h.1
    · rw [beq_false_of_ne hp, ih h.2]
      simp [hp]

/-- What is listed at a place is what stands there. -/
theorem get?_eq_some_iff {d : Disk} {p : Place} {entry : Entry} (hp : p.names ≠ []) :
    d.get? p = some entry ↔ (p, entry) ∈ d.entries := by
  rw [get?, if_neg (by simpa using hp), lookup_eq_some_iff d.sound.distinct]

/-- Whatever stands in a directory has a name there. -/
theorem isName_of_get? {d : Disk} {dir : Place} {name : String} {entry : Entry}
    (h : d.get? (dir.child name) = some entry) :
    Path.IsName name ∧ name.utf8ByteSize ≤ nameLimit := by
  have hmem := mem_entries_of_get? (dir.child_names_ne_nil name) h
  exact (d.sound.proper _ hmem).1.named name (by simp [Place.child])

/-! ## The files inside a directory -/

theorem fileInside?_eq_some_iff {dir : Place} {e : Place × Entry} {name : String} :
    fileInside? dir e = some name ↔ ∃ content, e = (dir.child name, .file content) := by
  obtain ⟨p, entry⟩ := e
  cases entry with
  | file content =>
    have hchild : p = dir.child name ↔ _ := Place.eq_child_iff
    rw [fileInside?]
    cases hlast : p.names.getLast? with
    | none => simp [hchild, hlast]
    | some last =>
      by_cases hdir : p.parent = dir
      · simp [hchild, hlast, hdir]
      · simp [hchild, hlast, hdir]
  | _ => simp [fileInside?]

theorem mem_filesInside_iff {d : Disk} {dir : Place} {name : String} :
    name ∈ d.filesInside dir ↔ ∃ content, d.get? (dir.child name) = some (.file content) := by
  simp only [filesInside, List.mem_mergeSort, List.mem_filterMap, fileInside?_eq_some_iff,
    get?_eq_some_iff (dir.child_names_ne_nil name)]
  constructor
  · rintro ⟨e, he, content, rfl⟩
    exact ⟨content, he⟩
  · rintro ⟨content, he⟩
    exact ⟨_, he, content, rfl⟩

theorem nodup_filesInside (d : Disk) (dir : Place) : (d.filesInside dir).Nodup := by
  have hplaces := d.sound.distinct
  rw [filesInside, (List.mergeSort_perm _ _).nodup_iff]
  rw [List.Nodup, List.pairwise_map] at hplaces
  refine hplaces.filterMap _ ?_
  -- Two entries with the same name inside the directory stand at the same place.
  rintro e e' hne a ha b hb rfl
  obtain ⟨_, rfl⟩ := fileInside?_eq_some_iff.1 ha
  obtain ⟨_, rfl⟩ := fileInside?_eq_some_iff.1 hb
  exact hne rfl

/-! ## Walks to a directory -/

/-- From a directory, with so many links to follow, the steps lead to the directory at `place`,
    and so many links may then still be followed. -/
inductive Leads (d : Disk) : Nat → Place → List Step → Nat → Place → Prop
  | stay {links : Nat} {dir : Place} : Leads d links dir [] links dir
  | dot {links left : Nat} {dir place : Place} {slash : Bool} {rest : List Step} :
    Leads d links dir rest left place → Leads d links dir (⟨".", slash⟩ :: rest) left place
  | up {links left : Nat} {dir place : Place} {slash : Bool} {rest : List Step} :
    Leads d links dir.parent rest left place → Leads d links dir (⟨"..", slash⟩ :: rest) left place
  | down {links left : Nat} {dir place : Place} {name : String} {slash : Bool} {rest : List Step} :
    name ≠ "." → name ≠ ".." → name.utf8ByteSize ≤ nameLimit →
    d.get? (dir.child name) = some .directory →
    Leads d links (dir.child name) rest left place →
      Leads d links dir (⟨name, slash⟩ :: rest) left place
  | link {links left : Nat} {dir place : Place} {name target : String} {slash : Bool}
    {rest : List Step} :
    name ≠ "." → name ≠ ".." → name.utf8ByteSize ≤ nameLimit →
    d.get? (dir.child name) = some (.link target) →
    Leads d links (startOf dir target) (linkSteps target slash ++ rest) left place →
      Leads d (links + 1) dir (⟨name, slash⟩ :: rest) left place

theorem leads_of_walk {d : Disk} {links : Nat} {dir place : Place} {steps : List Step}
    (h : d.walk .reach links dir steps = .ok (.found place .directory)) :
    ∃ left, Leads d links dir steps left place := by
  fun_induction walk d .reach links dir steps with
  | case1 links dir =>
    cases h
    exact ⟨links, .stay⟩
  | case2 links dir slash rest ih =>
    obtain ⟨left, hleads⟩ := ih h
    exact ⟨left, .dot hleads⟩
  | case3 links dir slash rest _ ih =>
    obtain ⟨left, hleads⟩ := ih h
    exact ⟨left, .up hleads⟩
  | case8 links dir name slash rest hdot hup _ hsize hget ih =>
    obtain ⟨left, hleads⟩ := ih h
    exact ⟨left, .down hdot hup (Nat.not_lt.1 hsize) hget hleads⟩
  | case11 dir name slash rest hdot hup _ hsize target hget _ links ih =>
    obtain ⟨left, hleads⟩ := ih h
    exact ⟨left, .link hdot hup (Nat.not_lt.1 hsize) hget hleads⟩
  | case12 links dir name slash rest _ _ _ _ entry hdirectory =>
    cases h
    exact absurd rfl hdirectory
  | _ => cases h

theorem walk_down {d : Disk} {purpose : Purpose} {links : Nat} {dir : Place} {name : String}
    {slash : Bool} {rest : List Step} (hdot : name ≠ ".") (hup : name ≠ "..")
    (hsize : name.utf8ByteSize ≤ nameLimit) (hget : d.get? (dir.child name) = some .directory)
    (hrest : rest ≠ [] ∨ purpose = .reach) :
    d.walk purpose links dir (⟨name, slash⟩ :: rest) =
      d.walk purpose links (dir.child name) rest := by
  have hwrite : ¬ (purpose = .write && slash && rest.isEmpty) = true := by
    rcases hrest with hne | rfl
    · simp [hne]
    · simp
  rw [walk, if_neg hdot, if_neg hup, if_neg hwrite, if_neg (Nat.not_lt.2 hsize)]
  simp only [hget]

theorem walk_link {d : Disk} {purpose : Purpose} {links : Nat} {dir : Place}
    {name target : String} {slash : Bool} {rest : List Step} (hdot : name ≠ ".")
    (hup : name ≠ "..") (hsize : name.utf8ByteSize ≤ nameLimit)
    (hget : d.get? (dir.child name) = some (.link target))
    (hrest : rest ≠ [] ∨ purpose = .reach) :
    d.walk purpose (links + 1) dir (⟨name, slash⟩ :: rest) =
      d.walk purpose links (startOf dir target) (linkSteps target slash ++ rest) := by
  have hwrite : ¬ (purpose = .write && slash && rest.isEmpty) = true := by
    rcases hrest with hne | rfl
    · simp [hne]
    · simp
  have hname : ¬ (rest.isEmpty && purpose = .name) = true := by
    rcases hrest with hne | rfl
    · simp [hne]
    · simp
  rw [walk, if_neg hdot, if_neg hup, if_neg hwrite, if_neg (Nat.not_lt.2 hsize)]
  simp only [hget, if_neg hname]

/-- To a directory and on from there. Whether slashes follow the names on the way does not
    matter. -/
theorem Leads.walk_append {d : Disk} {links left : Nat} {dir place : Place} {steps : List Step}
    (h : Leads d links dir steps left place) {purpose : Purpose} {front rest : List Step}
    (hnames : front.map Step.name = steps.map Step.name)
    (hrest : rest ≠ [] ∨ purpose = .reach) :
    d.walk purpose links dir (front ++ rest) = d.walk purpose left place rest := by
  -- The last name on a walk is special unless the walk is to a directory; none here is last.
  have hmore : ∀ more : List Step, more ++ rest ≠ [] ∨ purpose = .reach :=
    fun more => hrest.imp_left (List.append_ne_nil_of_right_ne_nil more)
  induction h generalizing front with
  | stay =>
    rw [List.map_nil, List.map_eq_nil_iff] at hnames
    rw [hnames, List.nil_append]
  | dot _ ih =>
    obtain ⟨⟨name, slash⟩, front, rfl, rfl, hfront⟩ := List.map_eq_cons_iff.1 hnames
    rw [List.cons_append, walk, if_pos rfl]
    exact ih hfront
  | up _ ih =>
    obtain ⟨⟨name, slash⟩, front, rfl, rfl, hfront⟩ := List.map_eq_cons_iff.1 hnames
    rw [List.cons_append, walk, if_neg (show ".." ≠ "." by decide), if_pos rfl]
    exact ih hfront
  | down hdot hup hsize hget _ ih =>
    obtain ⟨⟨name, slash⟩, front, rfl, rfl, hfront⟩ := List.map_eq_cons_iff.1 hnames
    rw [List.cons_append, walk_down hdot hup hsize hget (hmore front)]
    exact ih hfront
  | link hdot hup hsize hget _ ih =>
    obtain ⟨⟨name, slash⟩, front, rfl, rfl, hfront⟩ := List.map_eq_cons_iff.1 hnames
    rw [List.cons_append, walk_link hdot hup hsize hget (hmore front), ← List.append_assoc]
    apply ih
    rw [List.map_append, List.map_append, hfront, linkSteps, linkSteps, map_name_stepsOf,
      map_name_stepsOf]

theorem Leads.walk_eq {d : Disk} {links left : Nat} {dir place : Place} {steps : List Step}
    (h : Leads d links dir steps left place) :
    d.walk .reach links dir steps = .ok (.found place .directory) := by
  have hwalk : d.walk .reach links dir (steps ++ []) = d.walk .reach left place [] :=
    h.walk_append rfl (.inr rfl)
  rwa [List.append_nil, walk] at hwalk

/-- Directories and links that stay where they are lead where they led. -/
theorem Leads.mono {d d' : Disk} (hdirectory : ∀ p, d.get? p = some .directory →
      d'.get? p = some .directory)
    (hlink : ∀ p target, d.get? p = some (.link target) → d'.get? p = some (.link target))
    {links left : Nat} {dir place : Place} {steps : List Step}
    (h : Leads d links dir steps left place) : Leads d' links dir steps left place := by
  induction h with
  | stay => exact .stay
  | dot _ ih => exact .dot ih
  | up _ ih => exact .up ih
  | down hdot hup hsize hget _ ih => exact .down hdot hup hsize (hdirectory _ hget) ih
  | link hdot hup hsize hget _ ih => exact .link hdot hup hsize (hlink _ _ hget) ih

theorem Leads.trans {d : Disk} {links left last : Nat} {dir mid place : Place}
    {front rest : List Step} (h : Leads d links dir front left mid)
    (hrest : Leads d left mid rest last place) : Leads d links dir (front ++ rest) last place := by
  induction h with
  | stay => exact hrest
  | dot _ ih => exact .dot (ih hrest)
  | up _ ih => exact .up (ih hrest)
  | down hdot hup hsize hget _ ih => exact .down hdot hup hsize hget (ih hrest)
  | link hdot hup hsize hget _ ih =>
    have hlinked := ih hrest
    rw [List.append_assoc] at hlinked
    exact .link hdot hup hsize hget hlinked

/-- A walk ends at a free name only with its last step, in the directory the others lead to. -/
theorem leads_of_walk_free {d : Disk} {links : Nat} {dir place : Place} {steps : List Step}
    (h : d.walk .name links dir steps = .ok (.free place)) :
    ∃ front name slash left parent, steps = front ++ [⟨name, slash⟩] ∧
      Leads d links dir front left parent ∧ place = parent.child name ∧
      d.get? place = none ∧ name ≠ "." ∧ name ≠ ".." ∧ name.utf8ByteSize ≤ nameLimit := by
  fun_induction walk d .name links dir steps with
  | case1 links dir => cases h
  | case2 links dir slash rest ih =>
    obtain ⟨front, name, slash', left, parent, rfl, hleads, hfree⟩ := ih h
    exact ⟨_ :: front, name, slash', left, parent, rfl, .dot hleads, hfree⟩
  | case3 links dir slash rest _ ih =>
    obtain ⟨front, name, slash', left, parent, rfl, hleads, hfree⟩ := ih h
    exact ⟨_ :: front, name, slash', left, parent, rfl, .up hleads, hfree⟩
  | case6 links dir name slash rest hdot hup _ hsize hget hempty =>
    cases h
    rw [List.isEmpty_iff] at hempty
    subst hempty
    exact ⟨[], name, slash, links, dir, rfl, .stay, rfl, hget, hdot, hup, Nat.not_lt.1 hsize⟩
  | case8 links dir name slash rest hdot hup _ hsize hget ih =>
    obtain ⟨front, last, slash', left, parent, rfl, hleads, hfree⟩ := ih h
    exact ⟨_ :: front, last, slash', left, parent, rfl,
      .down hdot hup (Nat.not_lt.1 hsize) hget hleads, hfree⟩
  | case11 dir name slash rest hdot hup _ hsize target hget hmore links ih =>
    obtain ⟨front, last, slash', left, parent, hsteps, hleads, hfree⟩ := ih h
    -- More steps follow the link, and the last of them is the last of all.
    have hne : rest ≠ [] := by simpa using hmore
    obtain ⟨rest, final, rfl⟩ := (List.eq_nil_or_concat' rest).resolve_left hne
    rw [← List.append_assoc] at hsteps
    obtain ⟨rfl, hfinal⟩ := List.append_inj' hsteps rfl
    cases hfinal
    exact ⟨_ :: rest, last, slash', left, parent, rfl,
      .link hdot hup (Nat.not_lt.1 hsize) hget hleads, hfree⟩
  | _ => cases h

end Disk

end QueryLint

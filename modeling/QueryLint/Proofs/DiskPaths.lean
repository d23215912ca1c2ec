/-
  QueryLint.Proofs.DiskPaths

  Changing a disk by paths. A name joined to a path that leads to a directory stands for the
  place of that name in the directory (`Reaches.resolve_join`), so that files there are removed
  and written by such paths. Making a directory adds directories at free places along the path
  and changes nothing else (`createDirectories_grows`).
-/
import QueryLint.Proofs.DiskTree
import Mathlib.Data.List.Infix

namespace QueryLint

namespace Disk

/-! ## Paths to a directory -/

/-- The path leads to the directory at a place. -/
def Reaches (d : Disk) (path : String) (place : Place) : Prop :=
  d.resolve .reach path = .ok (.found place .directory)

/-- The system takes the path at all. -/
structure Passable (path : String) : Prop where
  nul : '\x00' ∉ path.toList
  nonempty : path ≠ ""
  size : path.utf8ByteSize ≤ pathLimit

theorem resolve_of_passable {path : String} (h : Passable path) (d : Disk) (purpose : Purpose) :
    d.resolve purpose path = d.walk purpose linkLimit (startOf .here path) (steps path) := by
  rw [resolve, if_neg (by simpa [String.contains_char_eq] using h.nul),
    if_neg (by simpa [String.isEmpty_iff] using h.nonempty), if_neg (Nat.not_lt.2 h.size)]

theorem passable_of_resolve {d : Disk} {purpose : Purpose} {path : String} {target : Target}
    (h : d.resolve purpose path = .ok target) : Passable path := by
  unfold resolve at h
  split at h
  · cases h
  · rename_i hnul
    split at h
    · cases h
    · rename_i hempty
      split at h
      · cases h
      · rename_i hsize
        exact ⟨by simpa [String.contains_char_eq] using hnul,
          by simpa [String.isEmpty_iff] using hempty, Nat.not_lt.1 hsize⟩

/-- A path over the limit is refused before it is followed. -/
theorem resolve_of_long {path : String} (hnul : '\x00' ∉ path.toList)
    (hsize : pathLimit < path.utf8ByteSize) (d : Disk) (purpose : Purpose) :
    d.resolve purpose path = .error .nameTooLong := by
  have hempty : path ≠ "" := by
    rintro rfl
    exact absurd hsize (by decide)
  rw [resolve, if_neg (by simpa [String.contains_char_eq] using hnul),
    if_neg (by simpa [String.isEmpty_iff] using hempty), if_pos hsize]

theorem Reaches.leads {d : Disk} {path : String} {place : Place} (h : d.Reaches path place) :
    ∃ left, Leads d linkLimit (startOf .here path) (steps path) left place := by
  rw [Reaches, resolve_of_passable (passable_of_resolve h)] at h
  exact leads_of_walk h

theorem reaches_of_leads {d : Disk} {path : String} {place : Place} {left : Nat}
    (hpath : Passable path)
    (h : Leads d linkLimit (startOf .here path) (steps path) left place) :
    d.Reaches path place := by
  rw [Reaches, resolve_of_passable hpath]
  exact h.walk_eq

theorem Reaches.mono {d d' : Disk} {path : String} {place : Place}
    (hdirectory : ∀ p, d.get? p = some .directory → d'.get? p = some .directory)
    (hlink : ∀ p target, d.get? p = some (.link target) → d'.get? p = some (.link target))
    (h : d.Reaches path place) : d'.Reaches path place := by
  obtain ⟨left, hleads⟩ := h.leads
  exact reaches_of_leads (passable_of_resolve h) (hleads.mono hdirectory hlink)

end Disk

/-! ## Names joined to a path -/

namespace Text

theorem pieces_append_separator (separator : Char) (a b : List Char) :
    pieces separator (a ++ separator :: b) = pieces separator a ++ pieces separator b := by
  induction a with
  | nil => exact pieces_cons_separator separator b
  | cons c a ih =>
    by_cases hc : c = separator
    · rw [hc, List.cons_append, pieces_cons_separator, pieces_cons_separator, ih, List.cons_append]
    · obtain ⟨piece, rest, hpieces⟩ := List.exists_cons_of_ne_nil (pieces_ne_nil separator a)
      rw [List.cons_append, pieces, pieces, if_neg hc, if_neg hc, ih, hpieces]
      rfl

end Text

namespace Path

open QueryLint.Text

theorem names_of_toList {path : String} {a b : List Char} (h : path.toList = a ++ '/' :: b) :
    names path = names (String.ofList a) ++ names (String.ofList b) := by
  simp only [names, h, String.toList_ofList, pieces_append_separator, List.filter_append,
    List.map_append]

theorem names_of_isName {name : String} (h : IsName name) : names name = [name] := by
  have hne : name.toList ≠ [] := by simpa using h.nonempty
  rw [names, pieces_of_not_mem h.slash]
  simp [hne]

/-- The path in front of a joined name, less its last slash. -/
theorem exists_toList_join {dir : String} (hdir : dir ≠ "") (name : String) :
    ∃ a, (join dir name).toList = a ++ '/' :: name.toList ∧ names (String.ofList a) = names dir ∧
      dir.toList <+: a ++ ['/'] := by
  have hempty : dir.isEmpty = false := by simpa [String.isEmpty_iff] using hdir
  rw [join, hempty, Bool.false_or]
  by_cases hslash : endsWithSlash dir = true
  · obtain ⟨a, ha⟩ := List.getLast?_eq_some_iff.1 (beq_iff_eq.1 hslash)
    refine ⟨a, ?_, ?_, ?_⟩
    · rw [if_pos hslash, String.toList_append, ha, List.append_assoc, List.singleton_append]
    · rw [names_of_toList ha]
      simp [names, pieces]
    · rw [ha]
  · refine ⟨dir.toList, ?_, ?_, List.prefix_append _ _⟩
    · rw [if_neg hslash, String.toList_append, String.toList_append, List.append_assoc]
      rfl
    · rw [String.ofList_toList]

theorem names_join {dir name : String} (hdir : dir ≠ "") (hname : IsName name) :
    names (join dir name) = names dir ++ [name] := by
  obtain ⟨a, hjoin, ha, -⟩ := exists_toList_join hdir name
  rw [names_of_toList hjoin, ha, String.ofList_toList, names_of_isName hname]

theorem endsWithSlash_join {dir name : String} (hdir : dir ≠ "") (hname : IsName name) :
    endsWithSlash (join dir name) = false := by
  obtain ⟨a, hjoin, -, -⟩ := exists_toList_join hdir name
  have hne : name.toList ≠ [] := by simpa using hname.nonempty
  rw [endsWithSlash, hjoin, List.getLast?_append_cons, List.getLast?_cons,
    List.getLast?_eq_some_getLast hne, beq_eq_false_iff_ne]
  intro heq
  have hlast : name.toList.getLast hne = '/' := Option.some.inj heq
  exact hname.slash (hlast ▸ List.getLast_mem hne)

theorem isAbsolute_join {dir name : String} (hdir : dir ≠ "") :
    isAbsolute (join dir name) = isAbsolute dir := by
  obtain ⟨a, hjoin, -, t, ht⟩ := exists_toList_join hdir name
  have hne : dir.toList ≠ [] := by simpa using hdir
  obtain ⟨c, cs, hcs⟩ := List.exists_cons_of_ne_nil hne
  have hwhole : (join dir name).toList = dir.toList ++ (t ++ name.toList) := by
    rw [hjoin, List.append_cons, ← ht, List.append_assoc]
  rw [isAbsolute, isAbsolute, hwhole, hcs]
  rfl

theorem nul_not_mem_join {dir name : String} (hdir : '\x00' ∉ dir.toList) (hname : IsName name) :
    '\x00' ∉ (join dir name).toList := by
  rw [join]
  split
  · simp [hdir, hname.nul]
  · simp [hdir, hname.nul]

end Path

namespace Disk

open QueryLint.Path

theorem stepsOf_concat (slash : Bool) (names : List String) (name : String) :
    stepsOf slash (names ++ [name]) = names.map (Step.mk · true) ++ [⟨name, slash⟩] := by
  induction names with
  | nil => rfl
  | cons first names ih =>
    cases names with
    | nil => rfl
    | cons next names =>
      show ⟨first, true⟩ :: stepsOf slash (next :: names ++ [name]) = _
      rw [ih]
      rfl

/-- A name fits into a directory: neither the name nor its path is too long. -/
structure Fits (dir name : String) : Prop where
  nameSize : name.utf8ByteSize ≤ nameLimit
  pathSize : (join dir name).utf8ByteSize ≤ pathLimit

/-- A name joined to a path stands for its place in the directory the path leads to. -/
theorem Reaches.resolve_join {d : Disk} {dir name : String} {place : Place}
    (h : d.Reaches dir place) (hname : IsName name) (hfits : Fits dir name) (purpose : Purpose) :
    ∃ left, d.resolve purpose (join dir name) = d.walk purpose left place [⟨name, false⟩] := by
  obtain ⟨left, hleads⟩ := h.leads
  have hdir := passable_of_resolve h
  have hpath : Passable (join dir name) := by
    refine ⟨nul_not_mem_join hdir.nul hname, ?_, hfits.pathSize⟩
    intro hempty
    obtain ⟨a, hjoin, -⟩ := exists_toList_join hdir.nonempty name
    rw [hempty] at hjoin
    simp at hjoin
  have hstart : startOf .here (join dir name) = startOf .here dir := by
    rw [startOf, startOf, isAbsolute_join hdir.nonempty]
  refine ⟨left, ?_⟩
  rw [resolve_of_passable hpath, hstart, steps, names_join hdir.nonempty hname,
    endsWithSlash_join hdir.nonempty hname, stepsOf_concat]
  apply hleads.walk_append
  · rw [steps, map_name_stepsOf, List.map_map]
    exact List.map_id _
  · exact .inl (List.cons_ne_nil _ _)

/-- The last name of a path stands for its place, unless a link is there. -/
theorem walk_last {d : Disk} {purpose : Purpose} {links : Nat} {dir : Place} {name : String}
    (hname : IsName name) (hsize : name.utf8ByteSize ≤ nameLimit) :
    (d.get? (dir.child name) = none →
      d.walk purpose links dir [⟨name, false⟩] = .ok (.free (dir.child name))) ∧
    ∀ entry, d.get? (dir.child name) = some entry → (∀ target, entry ≠ .link target) →
      d.walk purpose links dir [⟨name, false⟩] = .ok (.found (dir.child name) entry) := by
  have hlong := Nat.not_lt.2 hsize
  constructor
  · intro hget
    rw [walk, if_neg hname.dot, if_neg hname.up, if_neg (by simp), if_neg hlong]
    simp [hget]
  · intro entry hget hlink
    rw [walk, if_neg hname.dot, if_neg hname.up, if_neg (by simp), if_neg hlong]
    cases entry with
    | link target => exact absurd rfl (hlink target)
    | directory => simp [hget, walk]
    | file content => simp [hget]
    | device device => simp [hget]

/-- A name alone stands for its place in the working directory, unless a link is there. -/
theorem resolve_of_isName {d : Disk} {name : String} (hname : IsName name)
    (hsize : name.utf8ByteSize ≤ nameLimit) (purpose : Purpose) :
    (d.get? (Place.here.child name) = none →
      d.resolve purpose name = .ok (.free (Place.here.child name))) ∧
    ∀ entry, d.get? (Place.here.child name) = some entry → (∀ target, entry ≠ .link target) →
      d.resolve purpose name = .ok (.found (Place.here.child name) entry) := by
  have hpath : Passable name := ⟨hname.nul, hname.nonempty, Nat.le_trans hsize (by decide)⟩
  have hstart : isAbsolute name = false := by
    rw [isAbsolute, beq_eq_false_iff_ne]
    exact fun h => hname.slash (List.mem_of_head? h)
  have hslash : endsWithSlash name = false := by
    rw [endsWithSlash, beq_eq_false_iff_ne]
    exact fun h => hname.slash (List.mem_of_getLast? h)
  rw [resolve_of_passable hpath, steps, names_of_isName hname, hslash, startOf, hstart]
  exact walk_last hname hsize

/-- What stands in the directory is found by its joined path, unless it is a link. -/
theorem Reaches.resolve_join_found {d : Disk} {dir name : String} {place : Place}
    (h : d.Reaches dir place) (hname : IsName name) (hfits : Fits dir name) {entry : Entry}
    (hget : d.get? (place.child name) = some entry) (hlink : ∀ target, entry ≠ .link target)
    (purpose : Purpose) :
    d.resolve purpose (join dir name) = .ok (.found (place.child name) entry) := by
  obtain ⟨left, hresolve⟩ := h.resolve_join hname hfits purpose
  rw [hresolve]
  exact (walk_last hname hfits.nameSize).2 entry hget hlink

/-- A file in the directory is removed by its joined path. -/
theorem Reaches.removeFile_join {d : Disk} {dir name : String} {place : Place}
    (h : d.Reaches dir place) (hname : IsName name) (hfits : Fits dir name) {content : ByteArray}
    (hget : d.get? (place.child name) = some (.file content)) :
    d.removeFile (join dir name) = .ok (d.erase (place.child name)) := by
  have hresolve := h.resolve_join_found hname hfits hget (fun _ h => nomatch h) .name
  simp only [removeFile, hresolve]

/-! ## Changes where a path leads -/

section ChangeAt

variable {d : Disk} {purpose : Purpose} {path : String} {target : Target} {e : SystemError}
  (change : (target : Target) → (∀ place, target.Takes place → place.IsProper) →
    Except SystemError Disk)

theorem changeAt_of_ok (h : d.resolve purpose path = .ok target) :
    d.changeAt purpose path change = change target fun _ => isProper_of_resolve h := by
  unfold changeAt
  split
  · rename_i heq
    rw [h] at heq
    cases heq
  · rename_i heq
    rw [h] at heq
    cases heq
    rfl

theorem changeAt_of_error (h : d.resolve purpose path = .error e) :
    d.changeAt purpose path change = .error e := by
  unfold changeAt
  split
  · rename_i heq
    rw [h] at heq
    cases heq
    rfl
  · rename_i heq
    rw [h] at heq
    cases heq

end ChangeAt

/-- A file is put where the path of a writing ends. -/
theorem writeBytes_of_takes {d : Disk} {path : String} {target : Target} {place : Place}
    (h : d.resolve .write path = .ok target) (htakes : target.Takes place) (content : ByteArray) :
    ∃ hplace, d.writeBytes path content =
      .ok (d.put place (.file content) hplace (.file content)) := by
  refine ⟨isProper_of_resolve h htakes, ?_⟩
  rw [writeBytes, changeAt_of_ok _ h]
  cases htakes with
  | free => rfl
  | file => rfl

/-- A file is written by its joined path where nothing stands. -/
theorem Reaches.writeBytes_join {d : Disk} {dir name : String} {place : Place}
    (h : d.Reaches dir place) (hname : IsName name) (hfits : Fits dir name)
    (hget : d.get? (place.child name) = none) (content : ByteArray) :
    ∃ hplace, d.writeBytes (join dir name) content =
      .ok (d.put (place.child name) (.file content) hplace (.file content)) := by
  obtain ⟨left, hresolve⟩ := h.resolve_join hname hfits .write
  rw [(walk_last hname hfits.nameSize).1 hget] at hresolve
  exact writeBytes_of_takes hresolve .free content

/-! ## Making directories -/

/-- The second disk is the first with directories where nothing stood, each of them led to by
    one of the paths. -/
def Grows (paths : List String) (d d' : Disk) : Prop :=
  ∀ p, d'.get? p = d.get? p ∨
    d.get? p = none ∧ d'.get? p = some .directory ∧ ∃ path ∈ paths, d'.Reaches path p

theorem Grows.refl (paths : List String) (d : Disk) : Grows paths d d :=
  fun _ => .inl rfl

theorem Grows.get?_of_some {paths : List String} {d d' : Disk} (h : Grows paths d d') {p : Place}
    {entry : Entry} (hget : d.get? p = some entry) : d'.get? p = some entry := by
  rcases h p with hsame | ⟨hnone, -⟩
  · rw [hsame, hget]
  · rw [hget] at hnone
    cases hnone

theorem Grows.reaches {paths : List String} {d d' : Disk} (h : Grows paths d d') {path : String}
    {place : Place} (hreaches : d.Reaches path place) : d'.Reaches path place :=
  hreaches.mono (fun _ => h.get?_of_some) fun _ _ => h.get?_of_some

theorem Grows.trans {paths : List String} {d d' d'' : Disk} (h : Grows paths d d')
    (h' : Grows paths d' d'') : Grows paths d d'' := by
  intro p
  rcases h' p with hsame | ⟨hnone, hdirectory, hpath⟩
  · rcases h p with hfirst | ⟨hnone, hdirectory, path, hpath, hreaches⟩
    · exact .inl (hsame.trans hfirst)
    · exact .inr ⟨hnone, hsame.trans hdirectory, path, hpath, h'.reaches hreaches⟩
  · rcases h p with hfirst | ⟨-, hfirst, -⟩
    · exact .inr ⟨hfirst ▸ hnone, hdirectory, hpath⟩
    · rw [hfirst] at hnone
      cases hnone

/-- A directory made at a free name is what the path of that name leads to. -/
theorem grows_of_free {paths : List String} {d : Disk} {path : String} {place : Place}
    (hpath : path ∈ paths) (h : d.resolve .name path = .ok (.free place))
    (hplace : place.IsProper) : Grows paths d (d.put place .directory hplace .directory) := by
  have hpassable := passable_of_resolve h
  rw [resolve_of_passable hpassable] at h
  obtain ⟨front, name, slash, left, parent, hsteps, hleads, rfl, hnone, hdot, hup, hsize⟩ :=
    leads_of_walk_free h
  have hget := d.get?_put hplace Entry.IsProper.directory
  have hkept : ∀ p entry, d.get? p = some entry →
      (d.put (parent.child name) .directory hplace .directory).get? p = some entry := by
    intro p entry hp
    rw [hget, if_neg, hp]
    rintro rfl
    rw [hp] at hnone
    cases hnone
  have hnew : (d.put (parent.child name) .directory hplace .directory).get? (parent.child name) =
      some .directory := by
    rw [hget, if_pos rfl]
  -- The steps to the parent lead there still, and the last one now leads down.
  intro p
  by_cases hp : p = parent.child name
  · subst hp
    have hfront := hleads.mono (fun p => hkept p _) fun p _ => hkept p _
    have hwhole : Leads _ _ _ (front ++ [⟨name, slash⟩]) left (parent.child name) :=
      hfront.trans (.down hdot hup hsize hnew .stay)
    rw [← hsteps] at hwhole
    exact .inr ⟨hnone, hnew, path, hpath, reaches_of_leads hpassable hwhole⟩
  · exact .inl (by rw [hget, if_neg hp])

theorem ensureDirectory_grows {paths : List String} {path : String} (hpath : path ∈ paths)
    (d : Disk) : Grows paths d (d.ensureDirectory path).2 := by
  rw [ensureDirectory]
  cases hresolve : d.resolve .name path with
  | error e =>
    rw [makeDirectory, makeEntry, changeAt_of_error _ hresolve]
    simp only
    split <;> exact .refl paths d
  | ok target =>
    cases target with
    | free place =>
      rw [makeDirectory, makeEntry, changeAt_of_ok _ hresolve]
      exact grows_of_free hpath hresolve (isProper_of_resolve hresolve .free)
    | found place entry =>
      rw [makeDirectory, makeEntry, changeAt_of_ok _ hresolve, makeAt]
      simp only
      split <;> exact .refl paths d

theorem ensureAfter_grows {paths : List String} {path : String} (hpath : path ∈ paths)
    {parents : Disk → Outcome} (hparents : ∀ d, Grows paths d (parents d).2) (d : Disk) :
    Grows paths d (ensureAfter parents d path).2 := by
  have hfirst := ensureDirectory_grows hpath d
  rw [ensureAfter]
  split
  · rename_i made hmade
    rw [hmade] at hfirst
    have hsecond := hparents made
    split
    · rename_i above habove
      rw [habove] at hsecond
      exact (hfirst.trans hsecond).trans (ensureDirectory_grows hpath above)
    · exact hfirst.trans hsecond
  · exact hfirst

theorem makeDirectories_grows {paths : List String} {absolute : Bool} {names : List String}
    (hpaths : ∀ tail, tail <:+ names → ofComponents absolute tail.reverse ∈ paths) (d : Disk) :
    Grows paths d (makeDirectories absolute names d).2 := by
  induction names generalizing d with
  | nil => exact .refl paths d
  | cons name names ih =>
    rw [makeDirectories]
    refine ensureAfter_grows (hpaths _ List.suffix_rfl) (ih ?_) d
    exact fun tail htail => hpaths tail (htail.trans (List.suffix_cons _ _))

end Disk

/-- A path and the paths of the directories it goes through. -/
def Path.ancestors (path : String) : List String :=
  path :: (components path).inits.map (ofComponents (isAbsolute path))

namespace Disk

open QueryLint.Path

/-- Making a directory adds it and missing directories on the way, and changes nothing else. -/
theorem createDirectories_grows (d : Disk) (dir : String) :
    Grows (ancestors dir) d (d.createDirectories dir).2 := by
  rw [createDirectories]
  split
  · exact .refl _ d
  · refine ensureAfter_grows List.mem_cons_self (makeDirectories_grows ?_) d
    intro tail htail
    refine List.mem_cons_of_mem _ (List.mem_map_of_mem (List.mem_inits _ _ |>.2 ?_))
    rw [← List.reverse_suffix, List.reverse_reverse]
    exact htail.trans (List.reverse_suffix.2 (List.dropLast_prefix _))

theorem Reaches.ensureDirectory_eq {d : Disk} {dir : String} {place : Place}
    (h : d.Reaches dir place) : d.ensureDirectory dir = (.ok (), d) := by
  have hpassable := passable_of_resolve h
  have hisDirectory : d.isDirectory dir = true := by
    rw [Reaches] at h
    simp only [isDirectory, find?, h]
  have hmake : ∃ e, d.makeDirectory dir = .error e := by
    rw [makeDirectory]
    cases hresolve : d.resolve .name dir with
    | error e => exact ⟨e, changeAt_of_error _ hresolve⟩
    | ok target =>
      cases target with
      | found place entry => exact ⟨.alreadyExists, changeAt_of_ok _ hresolve⟩
      | free free =>
        -- A path that ends at a free name does not lead to a directory.
        rw [resolve_of_passable hpassable] at hresolve
        obtain ⟨front, name, slash, left, parent, hsteps, hleads, rfl, hnone, hdot, hup, hsize⟩ :=
          leads_of_walk_free hresolve
        have hwalk : d.walk .reach left parent [⟨name, slash⟩] =
            .ok (.free (parent.child name)) := by
          rw [walk, if_neg hdot, if_neg hup, if_neg (by simp), if_neg (Nat.not_lt.2 hsize)]
          simp [hnone]
        rw [Reaches, resolve_of_passable hpassable, hsteps, hleads.walk_append rfl (.inr rfl),
          hwalk] at h
        cases h
  obtain ⟨e, he⟩ := hmake
  simp only [ensureDirectory, he, hisDirectory, if_true]

/-- A directory that is there is not made again. -/
theorem Reaches.createDirectories_eq {d : Disk} {dir : String} {place : Place}
    (h : d.Reaches dir place) : d.createDirectories dir = (.ok (), d) := by
  have hempty : dir.isEmpty = false := by
    simpa [String.isEmpty_iff] using (passable_of_resolve h).nonempty
  simp only [createDirectories, hempty, Bool.false_eq_true, if_false, ensureAfter,
    h.ensureDirectory_eq]

end Disk

end QueryLint

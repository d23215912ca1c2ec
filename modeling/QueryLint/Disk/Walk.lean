/-
  QueryLint.Disk.Walk

  Following a path through a tree of files. Names are taken one after the other: each but
  the last must lead to a directory, and a link is replaced by the path it holds. What
  happens at the last name depends on what the path is followed for.
-/
import QueryLint.Disk.Basic
import QueryLint.Disk.Path

namespace QueryLint.Disk

/-- What a path is followed for. -/
inductive Purpose where
  /-- What the path leads to. A link at the end is followed. -/
  | reach
  /-- A file to be written, which is made if it is missing. A link at the end is followed, and a
      name that ends with a slash cannot be a file. -/
  | write
  /-- The name at the end, to be made or removed. A link there is not followed. -/
  | name
  deriving DecidableEq, Repr

/-- A name on a path, and whether a slash comes after it. -/
structure Step where
  name : String
  slash : Bool
  deriving DecidableEq, Repr

/-- Where a path leads. -/
inductive Target where
  /-- To something. -/
  | found (place : Place) (entry : Entry)
  /-- To a name that is free in a directory. -/
  | free (place : Place)

/-- How many links are followed along one path. -/
def linkLimit : Nat := 40

/-- A path is at most this many octets long. -/
def pathLimit : Nat := 4095

/-- The names as steps, of which only the last may stand without a slash. -/
def stepsOf (slash : Bool) : List String → List Step
  | [] => []
  | [name] => [⟨name, slash⟩]
  | name :: rest => ⟨name, true⟩ :: stepsOf slash rest

/-- The steps of a path. -/
def steps (path : String) : List Step :=
  stepsOf (Path.endsWithSlash path) (Path.names path)

/-- The steps of the path that a link holds, in the stead of the step that led to it. -/
def linkSteps (target : String) (slash : Bool) : List Step :=
  stepsOf (slash || Path.endsWithSlash target) (Path.names target)

/-- The directory a path starts from, if it is met in `dir`. -/
def startOf (dir : Place) (path : String) : Place :=
  if Path.isAbsolute path then .root else dir

/-- Follow steps from a directory; `links` counts the links that may still be followed. -/
def walk (d : Disk) (purpose : Purpose) (links : Nat) (dir : Place) :
    List Step → Except SystemError Target
  | [] => .ok (.found dir .directory)
  | ⟨name, slash⟩ :: rest =>
    if name = "." then walk d purpose links dir rest
    else if name = ".." then walk d purpose links dir.parent rest
    else if purpose = .write && slash && rest.isEmpty then .error .isDirectory
    else if nameLimit < name.utf8ByteSize then .error .nameTooLong
    else match d.get? (dir.child name) with
      | none => if rest.isEmpty then .ok (.free (dir.child name)) else .error .notFound
      | some .directory => walk d purpose links (dir.child name) rest
      | some (.link target) =>
        if rest.isEmpty && purpose = .name then .ok (.found (dir.child name) (.link target))
        else match links with
          | 0 => .error .tooManyLinks
          | links + 1 => walk d purpose links (startOf dir target) (linkSteps target slash ++ rest)
      | some entry =>
        if rest.isEmpty && (purpose = .name || !slash) then .ok (.found (dir.child name) entry)
        else .error .notDirectory
  termination_by steps => (links, steps.length)

/-- Follow a path from the working directory. -/
def resolve (d : Disk) (purpose : Purpose) (path : String) : Except SystemError Target :=
  if path.contains '\x00' then .error .nulInName
  else if path.isEmpty then .error .notFound
  else if pathLimit < path.utf8ByteSize then .error .nameTooLong
  else d.walk purpose linkLimit (startOf .here path) (steps path)

/-! ## Where a walk ends -/

/-- A file can be written where a path leads: at a place that is free, or where a file stands. -/
inductive Target.Takes : Target → Place → Prop
  | free {place : Place} : Takes (.free place) place
  | file {place : Place} {content : ByteArray} : Takes (.found place (.file content)) place

theorem map_name_stepsOf (slash : Bool) (names : List String) :
    (stepsOf slash names).map Step.name = names := by
  induction names with
  | nil => rfl
  | cons name names ih =>
    cases names with
    | nil => rfl
    | cons next names =>
      rw [stepsOf, List.map_cons, ih]
      exact List.cons_ne_nil _ _

/-- A step that leads down or names something. -/
def Step.IsProper (step : Step) : Prop :=
  step.name ≠ "." → step.name ≠ ".." → Path.IsName step.name

theorem isProper_of_mem_stepsOf {path : String} (hnul : '\x00' ∉ path.toList) {slash : Bool}
    {step : Step} (hstep : step ∈ stepsOf slash (Path.names path)) : step.IsProper := by
  have hname : step.name ∈ (stepsOf slash (Path.names path)).map Step.name :=
    List.mem_map_of_mem hstep
  rw [map_name_stepsOf] at hname
  exact Path.isName_of_mem_names hnul hname

theorem startOf_isNamed {dir : Place} (h : dir.IsNamed) (path : String) :
    (startOf dir path).IsNamed := by
  rw [startOf]
  split
  · exact Place.isNamed_of_nil _
  · exact h

/-- Proper steps end where a file can be written only at a place where one can be put. -/
theorem isProper_of_walk {d : Disk} {purpose : Purpose} {links : Nat} {dir place : Place}
    {steps : List Step} {target : Target} (hdir : dir.IsNamed) (hsteps : ∀ s ∈ steps, s.IsProper)
    (h : d.walk purpose links dir steps = .ok target) (htakes : target.Takes place) :
    place.IsProper := by
  fun_induction walk d purpose links dir steps with
  | case1 links dir =>
    cases h
    cases htakes
  | case2 links dir slash rest ih =>
    exact ih hdir (fun s hs => hsteps s (List.mem_cons_of_mem _ hs)) h
  | case3 links dir slash rest _ ih =>
    exact ih hdir.parent (fun s hs => hsteps s (List.mem_cons_of_mem _ hs)) h
  | case6 links dir name slash rest hdot hup _ hsize hget hlast =>
    cases h
    cases htakes
    exact hdir.child (hsteps _ List.mem_cons_self hdot hup) (Nat.not_lt.1 hsize)
  | case8 links dir name slash rest hdot hup _ hsize hget ih =>
    have hchild := hdir.child (hsteps _ List.mem_cons_self hdot hup) (Nat.not_lt.1 hsize)
    exact ih hchild.named (fun s hs => hsteps s (List.mem_cons_of_mem _ hs)) h
  | case9 links dir name slash rest hdot hup _ hsize linked hget hlast =>
    cases h
    cases htakes
  | case11 dir name slash rest hdot hup _ hsize linked hget hmore links ih =>
    -- The path that the link holds has no NUL, so its steps are proper too.
    have hlink := (d.sound.proper _ (mem_entries_of_get? (by simp [Place.child]) hget)).2
    refine ih (startOf_isNamed hdir linked) (fun s hs => ?_) h
    rcases List.mem_append.1 hs with hlinked | hrest
    · exact isProper_of_mem_stepsOf hlink hlinked
    · exact hsteps s (List.mem_cons_of_mem _ hrest)
  | case12 links dir name slash rest hdot hup _ hsize entry hdirectory hlink hget hlast =>
    cases h
    cases htakes
    exact hdir.child (hsteps _ List.mem_cons_self hdot hup) (Nat.not_lt.1 hsize)
  | _ => cases h

theorem isProper_of_resolve {d : Disk} {purpose : Purpose} {path : String} {place : Place}
    {target : Target} (h : d.resolve purpose path = .ok target) (htakes : target.Takes place) :
    place.IsProper := by
  unfold resolve at h
  split at h
  · cases h
  · rename_i hnul
    split at h
    · cases h
    · split at h
      · cases h
      · have hpath : '\x00' ∉ path.toList := by simpa [String.contains_char_eq] using hnul
        exact isProper_of_walk (startOf_isNamed (Place.isNamed_of_nil _) path)
          (fun s hs => isProper_of_mem_stepsOf hpath hs) h htakes

end QueryLint.Disk

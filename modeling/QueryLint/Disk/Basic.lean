/-
  QueryLint.Disk.Basic

  A tree of files, directories, symbolic links and devices, held as a map from places to
  what stands there. A place is reached from an anchor by names alone, without `.`, `..`
  or links, so that each place has one form. The anchors are the working directory, the
  directories above it and the root.

  `Disk.IsSound` says which maps are trees, and a `Disk` carries the proof of it.

  Some things that a system has are left out. The working directory is an anchor of its own: it
  lies `workingDepth` levels below the root, but no name leads down to it from there. Names and
  paths are texts, so names that are no UTF-8 do not occur. There are no permissions, so nothing
  is refused for want of one.
-/
import QueryLint.Disk.Device
import QueryLint.Disk.Path

namespace QueryLint

/-- The directories that are always there. -/
inductive Anchor where
  /-- The working directory, or the one so many levels above it. -/
  | above (levels : Nat)
  /-- The root of the system. -/
  | root
  deriving DecidableEq, Repr

/-- How many levels below the root the working directory is. -/
def workingDepth : Nat := 4

/-- The directory above an anchor; the root is above itself. -/
def Anchor.parent : Anchor → Anchor
  | .above levels => if levels + 1 < workingDepth then .above (levels + 1) else .root
  | .root => .root

/-- Where something stands: the names that lead to it from an anchor. -/
structure Place where
  anchor : Anchor
  names : List String
  deriving DecidableEq, Repr

namespace Place

/-- The working directory. -/
def here : Place :=
  ⟨.above 0, []⟩

/-- The root of the system. -/
def root : Place :=
  ⟨.root, []⟩

/-- The place of a name in a directory. -/
def child (dir : Place) (name : String) : Place :=
  ⟨dir.anchor, dir.names ++ [name]⟩

/-- The directory a place is in. -/
def parent (place : Place) : Place :=
  if place.names.isEmpty then ⟨place.anchor.parent, []⟩ else ⟨place.anchor, place.names.dropLast⟩

end Place

/-- What stands at a place. -/
inductive Disk.Entry where
  | file (content : ByteArray)
  | directory
  | link (target : String)
  | device (device : Device)

/-! ## Sound trees -/

/-- A name is at most this many octets long. -/
def Disk.nameLimit : Nat := 255

namespace Place

/-- The names that lead to the place can stand in a directory. -/
def IsNamed (place : Place) : Prop :=
  ∀ name ∈ place.names, Path.IsName name ∧ name.utf8ByteSize ≤ Disk.nameLimit

instance (place : Place) : Decidable place.IsNamed :=
  inferInstanceAs (Decidable (∀ name ∈ place.names, _))

/-- A place where something can be put: it has a name, below an anchor. -/
structure IsProper (place : Place) : Prop where
  below : place.names ≠ []
  named : place.IsNamed

instance (place : Place) : Decidable place.IsProper :=
  decidable_of_iff (place.names ≠ [] ∧ place.IsNamed)
    ⟨fun ⟨below, named⟩ => ⟨below, named⟩, fun h => ⟨h.below, h.named⟩⟩

theorem isNamed_of_nil (anchor : Anchor) : IsNamed ⟨anchor, []⟩ := by
  simp [IsNamed]

theorem IsNamed.parent {place : Place} (h : place.IsNamed) : place.parent.IsNamed := by
  rw [Place.parent]
  split
  · exact isNamed_of_nil _
  · exact fun name hname => h name (List.dropLast_subset _ hname)

theorem IsNamed.child {dir : Place} (h : dir.IsNamed) {name : String} (hname : Path.IsName name)
    (hsize : name.utf8ByteSize ≤ Disk.nameLimit) : (dir.child name).IsProper := by
  refine ⟨by simp [Place.child], fun other hother => ?_⟩
  rcases List.mem_append.1 hother with hdir | hlast
  · exact h other hdir
  · obtain rfl := List.mem_singleton.1 hlast
    exact ⟨hname, hsize⟩

end Place

namespace Disk

/-- A link holds a path, so there is no NUL in it. -/
def Entry.IsProper : Entry → Prop
  | .link target => '\x00' ∉ target.toList
  | _ => True

instance : (entry : Entry) → Decidable entry.IsProper
  | .link target => inferInstanceAs (Decidable ('\x00' ∉ target.toList))
  | .file _ | .directory | .device _ => .isTrue trivial

theorem Entry.IsProper.file (content : ByteArray) : (Entry.file content).IsProper :=
  trivial

theorem Entry.IsProper.directory : Entry.directory.IsProper :=
  trivial

/-- No place is listed twice, and each is one where what stands there can be put. -/
structure IsSound (entries : List (Place × Entry)) : Prop where
  distinct : (entries.map Prod.fst).Nodup
  proper : ∀ e ∈ entries, e.1.IsProper ∧ e.2.IsProper

instance (entries : List (Place × Entry)) : Decidable (IsSound entries) :=
  decidable_of_iff ((entries.map Prod.fst).Nodup ∧ ∀ e ∈ entries, e.1.IsProper ∧ e.2.IsProper)
    ⟨fun ⟨distinct, proper⟩ => ⟨distinct, proper⟩, fun h => ⟨h.distinct, h.proper⟩⟩

end Disk

/-- A tree of files: what stands at places other than anchors. -/
structure Disk where
  entries : List (Place × Disk.Entry)
  sound : Disk.IsSound entries := by decide

namespace Disk

/-- What is left of a sound tree is sound. -/
theorem IsSound.filter {entries : List (Place × Entry)} (h : IsSound entries)
    (keep : Place × Entry → Bool) : IsSound (entries.filter keep) where
  distinct := List.Nodup.sublist (List.filter_sublist.map Prod.fst) h.distinct
  proper e he := h.proper e (List.mem_filter.1 he).1

/-- A place that is not yet listed can be added. -/
theorem IsSound.concat {entries : List (Place × Entry)} (h : IsSound entries) {place : Place}
    {entry : Entry} (hnew : place ∉ entries.map Prod.fst) (hplace : place.IsProper)
    (hentry : entry.IsProper) : IsSound (entries ++ [(place, entry)]) where
  distinct := by
    rw [List.map_append, List.nodup_append]
    refine ⟨h.distinct, by simp, ?_⟩
    intro p hp q hq hsame
    rw [List.map_singleton, List.mem_singleton] at hq
    rw [hsame, hq] at hp
    exact hnew hp
  proper e he := by
    rcases List.mem_append.1 he with hold | hlast
    · exact h.proper e hold
    · obtain rfl := List.mem_singleton.1 hlast
      exact ⟨hplace, hentry⟩

/-! ## Looking and changing -/

/-- Nothing but the anchors. -/
def empty : Disk where
  entries := []

/-- What stands at a place; an anchor is a directory. -/
def get? (d : Disk) (place : Place) : Option Entry :=
  if place.names.isEmpty then some .directory else d.entries.lookup place

theorem mem_entries_of_get? {d : Disk} {place : Place} {entry : Entry}
    (hplace : place.names ≠ []) (h : d.get? place = some entry) : (place, entry) ∈ d.entries := by
  rw [get?, if_neg (by simpa using hplace)] at h
  obtain ⟨front, back, hentries, -⟩ := List.lookup_eq_some_iff.1 h
  rw [hentries]
  exact List.mem_append_right front List.mem_cons_self

theorem fst_ne_of_mem_filter {entries : List (Place × Entry)} (place : Place) :
    place ∉ (entries.filter (·.1 ≠ place)).map Prod.fst := by
  intro hmem
  obtain ⟨e, he, hplace⟩ := List.mem_map.1 hmem
  exact of_decide_eq_true (List.mem_filter.1 he).2 hplace

/-- Remove what stands at a place. -/
def erase (d : Disk) (place : Place) : Disk where
  entries := d.entries.filter (·.1 ≠ place)
  sound := d.sound.filter _

/-- Put something at a place, in the stead of what stood there. -/
def put (d : Disk) (place : Place) (entry : Entry) (hplace : place.IsProper)
    (hentry : entry.IsProper) : Disk where
  entries := d.entries.filter (·.1 ≠ place) ++ [(place, entry)]
  sound := (d.sound.filter _).concat (fst_ne_of_mem_filter place) hplace hentry

end Disk

end QueryLint

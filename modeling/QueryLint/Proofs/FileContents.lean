/-
  QueryLint.Proofs.FileContents

  What a file holds once it is written. A file is put where nothing or another file stood, so
  the directories and links on the way to it are as they were, and the path that was written
  leads to the new file (`walk_of_takes`). It is read with the text that was written, and every
  other place is untouched (`TakesFile.writeBytes`).
-/
import QueryLint.Proofs.DiskPaths

namespace QueryLint

theorem fromUTF8?_toUTF8 (text : String) : String.fromUTF8? text.toUTF8 = some text :=
  dif_pos text.isValidUTF8

namespace Disk

/-- A file is read as the text whose octets it holds. -/
theorem readText_of_resolve {d : Disk} {path text : String} {place : Place}
    (h : d.resolve .reach path = .ok (.found place (.file text.toUTF8))) :
    d.readText path = .ok text := by
  simp only [readText, readBytes, h, fromUTF8?_toUTF8]

/-! ## The way to a file that is written -/

/-- Nothing or a file stands where a walk ends at which a file can be written. -/
theorem get?_of_takes {d : Disk} {links : Nat} {dir place : Place} {steps : List Step}
    {target : Target} (h : d.walk .write links dir steps = .ok target)
    (htakes : target.Takes place) :
    d.get? place = none ∨ ∃ content, d.get? place = some (.file content) := by
  fun_induction walk d .write links dir steps with
  | case1 links dir =>
    cases h
    cases htakes
  | case2 links dir slash rest ih => exact ih h
  | case3 links dir slash rest _ ih => exact ih h
  | case6 links dir name slash rest _ _ _ _ hget =>
    cases h
    cases htakes
    exact .inl hget
  | case8 links dir name slash rest _ _ _ _ _ ih => exact ih h
  | case9 links dir name slash rest _ _ _ _ linked =>
    cases h
    cases htakes
  | case11 dir name slash rest _ _ _ _ linked _ _ links ih => exact ih h
  | case12 links dir name slash rest _ _ _ _ entry _ _ hget =>
    cases h
    cases htakes
    exact .inr ⟨_, hget⟩
  | _ => cases h

/-- A file that stands where a writing ends is reached by the same steps, if the directories and
    links are where they were. -/
theorem walk_of_takes {d d' : Disk} {links : Nat} {dir place : Place} {steps : List Step}
    {target : Target} {content : ByteArray} (h : d.walk .write links dir steps = .ok target)
    (htakes : target.Takes place) (hfile : d'.get? place = some (.file content))
    (hdirectory : ∀ p, d.get? p = some .directory → d'.get? p = some .directory)
    (hlink : ∀ p linked, d.get? p = some (.link linked) → d'.get? p = some (.link linked)) :
    d'.walk .reach links dir steps = .ok (.found place (.file content)) := by
  -- A name to be written is the last and has no slash behind it.
  have hlast : ∀ {links dir name slash}, name ≠ "." → name ≠ ".." →
      ¬ nameLimit < name.utf8ByteSize → slash = false → dir.child name = place →
      d'.walk .reach links dir [⟨name, slash⟩] = .ok (.found place (.file content)) := by
    rintro links dir name _ hdot hup hsize rfl rfl
    rw [walk, if_neg hdot, if_neg hup, if_neg (by simp), if_neg hsize]
    simp [hfile]
  fun_induction walk d .write links dir steps with
  | case1 links dir =>
    cases h
    cases htakes
  | case2 links dir slash rest ih =>
    rw [walk, if_pos rfl]
    exact ih h
  | case3 links dir slash rest hdot ih =>
    rw [walk, if_neg hdot, if_pos rfl]
    exact ih h
  | case6 links dir name slash rest hdot hup hslash hsize hget hempty =>
    cases h
    obtain rfl := List.isEmpty_iff.1 hempty
    cases htakes
    exact hlast hdot hup hsize (by simpa using hslash) rfl
  | case8 links dir name slash rest hdot hup _ hsize hget ih =>
    rw [walk_down hdot hup (Nat.not_lt.1 hsize) (hdirectory _ hget) (.inr rfl)]
    exact ih h
  | case9 links dir name slash rest _ _ _ _ linked =>
    cases h
    cases htakes
  | case11 dir name slash rest hdot hup _ hsize linked hget _ links ih =>
    rw [walk_link hdot hup (Nat.not_lt.1 hsize) (hlink _ _ hget) (.inr rfl)]
    exact ih h
  | case12 links dir name slash rest hdot hup hslash hsize entry _ _ hget hempty =>
    cases h
    obtain rfl := List.isEmpty_iff.1 (Bool.and_eq_true_iff.1 hempty).1
    cases htakes
    exact hlast hdot hup hsize (by simpa using hslash) rfl
  | _ => cases h

/-! ## Writing and reading again -/

/-- A file can be written by the path, and stands at the place then: nothing or a file stands
    there now. -/
def TakesFile (d : Disk) (path : String) (place : Place) : Prop :=
  ∃ target, d.resolve .write path = .ok target ∧ target.Takes place

/-- A file that is written is what its path leads to, and nothing else changes. -/
theorem TakesFile.writeBytes {d : Disk} {path : String} {place : Place}
    (h : d.TakesFile path place) (content : ByteArray) :
    ∃ d', d.writeBytes path content = .ok d' ∧
      d'.resolve .reach path = .ok (.found place (.file content)) ∧
      ∀ p, p ≠ place → d'.get? p = d.get? p := by
  obtain ⟨target, hresolve, htakes⟩ := h
  obtain ⟨hplace, hwritten⟩ := writeBytes_of_takes hresolve htakes content
  have hpath := passable_of_resolve hresolve
  rw [resolve_of_passable hpath] at hresolve
  have hget := d.get?_put hplace (.file content)
  have hother : ∀ p, p ≠ place → (d.put place (.file content) hplace (.file content)).get? p =
      d.get? p := by
    intro p hp
    rw [hget, if_neg hp]
  -- Nothing but a file was at the place, so the way there is as it was.
  have hkept : ∀ p entry, d.get? p = some entry → (∀ old, entry ≠ .file old) →
      (d.put place (.file content) hplace (.file content)).get? p = some entry := by
    intro p entry hp hfile
    rw [hother p, hp]
    rintro rfl
    rcases get?_of_takes hresolve htakes with hnone | ⟨old, hold⟩
    · rw [hp] at hnone
      cases hnone
    · rw [hp] at hold
      exact hfile old (Option.some.inj hold)
  refine ⟨_, hwritten, ?_, hother⟩
  rw [resolve_of_passable hpath]
  refine walk_of_takes hresolve htakes (by rw [hget, if_pos rfl]) (fun p hp => ?_) fun p _ hp => ?_
  · exact hkept p _ hp fun _ h => nomatch h
  · exact hkept p _ hp fun _ h => nomatch h

/-- What is written is kept, unless a device takes it. -/
theorem readText_of_writeBytes {d d' : Disk} {path text : String}
    (h : d.writeBytes path text.toUTF8 = .ok d') :
    d'.readText path = .ok text ∨
      ∃ place device, d.resolve .write path = .ok (.found place (.device device)) := by
  cases hresolve : d.resolve .write path with
  | error e =>
    rw [Disk.writeBytes, changeAt_of_error _ hresolve] at h
    cases h
  | ok target =>
    have hkept : ∀ place, target.Takes place → d'.readText path = .ok text := by
      intro place htakes
      obtain ⟨saved, hsaved, hreach, -⟩ :=
        TakesFile.writeBytes ⟨target, hresolve, htakes⟩ text.toUTF8
      cases h.symm.trans hsaved
      exact readText_of_resolve hreach
    cases target with
    | free place => exact .inl (hkept place .free)
    | found place entry =>
      cases entry with
      | file old => exact .inl (hkept place .file)
      | device device => exact .inr ⟨place, device, rfl⟩
      | directory | link linked =>
        rw [Disk.writeBytes, changeAt_of_ok _ hresolve] at h
        cases h

end Disk

end QueryLint

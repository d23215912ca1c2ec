/-
  QueryLint.Proofs.DirectoryReading

  Reading a directory, said by the files in it. The files that are read are those that stand
  directly in the directory under a name that no pattern matches, in the order of the octets of
  their names (`SelectedFiles`). Nothing else on the disk matters: what comes of reading them is
  `readFiles`, which is given the path, the files and nothing of the disk (`run_read`).

  A name joined to the path stands for the file, so reading it fails only where the path gets too
  long or the content is no text (`readText_join`).
-/
import QueryLint.Proofs.EarlyFailure
import QueryLint.Proofs.Octets
import Mathlib.Data.List.Sort
import Mathlib.Data.String.Basic

namespace QueryLint

/-! ## Names -/

namespace Path

/-- The name that a joined path ends with. -/
theorem fileName?_join {dir name : String} (hdir : dir ≠ "") (hname : IsName name) :
    fileName? (join dir name) = some name := by
  have hkept : [name].filter (· ≠ ".") = [name] := by simp [hname.dot]
  have hlast : (components (join dir name)).getLast? = some name := by
    rw [components, names_join hdir hname]
    cases names dir with
    | nil => simp [hname.dot]
    | cons first rest =>
      simp only [List.cons_append, List.filter_append, hkept, ← List.append_assoc]
      exact List.getLast?_concat
  rw [fileName?, hlast]
  simp [hname.dot, hname.up]

end Path

namespace Source

open QueryLint.Path QueryLint.Text

/-! ## The files that are read -/

/-- A file that is read: it stands directly in the directory, and no pattern matches its name. -/
def Selected (d : Disk) (dir : Place) (skip : List String) (name : String)
    (content : ByteArray) : Prop :=
  d.get? (dir.child name) = some (.file content) ∧ isSkipped skip name = false

/-- All files that are read, in increasing order of the octets of their names. -/
structure SelectedFiles (d : Disk) (dir : Place) (skip : List String)
    (files : List (String × ByteArray)) : Prop where
  sorted : files.Pairwise fun a b => octets a.1.toList < octets b.1.toList
  mem : ∀ name content, (name, content) ∈ files ↔ Selected d dir skip name content

/-- Files that are listed in order are told apart by what is among them. -/
theorem SelectedFiles.unique {d d' : Disk} {dir dir' : Place} {skip : List String}
    {files files' : List (String × ByteArray)} (h : SelectedFiles d dir skip files)
    (h' : SelectedFiles d' dir' skip files')
    (hsame : ∀ name content, Selected d dir skip name content ↔
      Selected d' dir' skip name content) : files = files' := by
  have hnodup : ∀ {fs : List (String × ByteArray)},
      fs.Pairwise (fun a b => octets a.1.toList < octets b.1.toList) → fs.Nodup := by
    intro fs hfs
    refine hfs.imp ?_
    rintro a b hlt rfl
    exact List.lt_irrefl _ hlt
  -- The same files are in both lists, and a set of files has one strict order.
  have hperm : files.Perm files' := by
    rw [List.perm_ext_iff_of_nodup (hnodup h.sorted) (hnodup h'.sorted)]
    rintro ⟨name, content⟩
    rw [h.mem, h'.mem, hsame]
  refine hperm.eq_of_pairwise ?_ h.sorted h'.sorted
  intro a b _ _ hab hba
  exact absurd hba (List.lt_asymm hab)

/-- The names of the files inside a directory increase octet by octet. -/
theorem sorted_filesInside (d : Disk) (dir : Place) :
    (d.filesInside dir).Pairwise fun a b => octets a.toList < octets b.toList := by
  have hle : (d.filesInside dir).Pairwise fun a b => decide (a ≤ b) = true := by
    apply List.pairwise_mergeSort
    · intro a b c hab hbc
      simp only [decide_eq_true_eq] at hab hbc ⊢
      exact le_trans hab hbc
    · intro a b
      simp only [Bool.or_eq_true, decide_eq_true_eq]
      exact le_total a b
  refine (hle.and (Disk.nodup_filesInside d dir)).imp ?_
  rintro a b ⟨hab, hne⟩
  have hlt : a < b := lt_of_le_of_ne (of_decide_eq_true hab) hne
  exact octets_lt_octets_iff.2 hlt

theorem exists_contents {P : String → ByteArray → Prop} {names : List String}
    (h : ∀ name ∈ names, ∃ content, P name content) :
    ∃ files : List (String × ByteArray), files.map Prod.fst = names ∧ ∀ f ∈ files, P f.1 f.2 := by
  induction names with
  | nil => exact ⟨[], rfl, by simp⟩
  | cons name names ih =>
    obtain ⟨content, hcontent⟩ := h name List.mem_cons_self
    obtain ⟨files, hfiles, hP⟩ := ih fun n hn => h n (List.mem_cons_of_mem _ hn)
    refine ⟨(name, content) :: files, by rw [List.map_cons, hfiles], ?_⟩
    rw [List.forall_mem_cons]
    exact ⟨hcontent, hP⟩

/-- Files in order, under the names that are left of a directory's, are those that are read. -/
theorem selectedFiles_of_perm {d : Disk} {dir : Place} {skip : List String}
    {files : List (String × ByteArray)}
    (hsorted : files.Pairwise fun a b => octets a.1.toList < octets b.1.toList)
    (hnames : (files.map Prod.fst).Perm
      ((d.entries.filterMap (Disk.fileInside? dir)).filter (!isSkipped skip ·)))
    (hcontents : ∀ f ∈ files, d.get? (dir.child f.1) = some (.file f.2)) :
    SelectedFiles d dir skip files := by
  have hleft : ∀ name, name ∈ files.map Prod.fst ↔
      name ∈ d.filesInside dir ∧ isSkipped skip name = false := by
    intro name
    rw [hnames.mem_iff, List.mem_filter, Bool.not_eq_true', Disk.filesInside, List.mem_mergeSort]
  refine ⟨hsorted, fun name content => ⟨fun hmem => ⟨hcontents _ hmem, ?_⟩, ?_⟩⟩
  · exact ((hleft name).1 (List.mem_map_of_mem hmem)).2
  · rintro ⟨hget, hkept⟩
    have hname := (hleft name).2 ⟨Disk.mem_filesInside_iff.2 ⟨content, hget⟩, hkept⟩
    obtain ⟨⟨_, content'⟩, hmem, rfl⟩ := List.mem_map.1 hname
    have hcontent := hcontents _ hmem
    rw [hget] at hcontent
    cases hcontent
    exact hmem

/-- There are such files in every directory, and a listing names them in their order. -/
theorem exists_selectedFiles (d : Disk) (dir : Place) (skip : List String) :
    ∃ files, SelectedFiles d dir skip files ∧
      files.map Prod.fst = (d.filesInside dir).filter (!isSkipped skip ·) := by
  have hcontents : ∀ name ∈ (d.filesInside dir).filter (!isSkipped skip ·),
      ∃ content, d.get? (dir.child name) = some (.file content) := fun name hname =>
    Disk.mem_filesInside_iff.1 (List.mem_filter.1 hname).1
  obtain ⟨files, hnames, hfiles⟩ := exists_contents hcontents
  refine ⟨files, selectedFiles_of_perm ?_ ?_ hfiles, hnames⟩
  · have hsorted := (sorted_filesInside d dir).filter (!isSkipped skip ·)
    rwa [← hnames, List.pairwise_map] at hsorted
  · rw [hnames]
    exact (List.mergeSort_perm _ _).filter _

/-! ## Reading one file after the other -/

/-- A file whose content is a text and whose path is not too long. -/
def Readable (dir : String) (file : String × ByteArray) : Prop :=
  (∃ text : String, file.2 = text.toUTF8) ∧
    (join dir file.1).utf8ByteSize ≤ Disk.pathLimit

/-- The text of a file in the directory a path leads to. -/
def fileText (dir : String) (file : String × ByteArray) : Except SystemError String :=
  if Disk.pathLimit < (join dir file.1).utf8ByteSize then .error .nameTooLong
  else (String.fromUTF8? file.2).elim (.error .notUtf8) .ok

/-- The queries of files in the directory a path leads to, up to the first that is not read. -/
def readFiles (dir : String) (mode : SplitMode) :
    List (String × ByteArray) → Except ReadError (List Query)
  | [] => return []
  | file :: files => do
    let text ← (fileText dir file).mapError (.unreadable (join dir file.1))
    return queriesOf file.1 mode text ++ (← readFiles dir mode files)

theorem fileText_of_text {dir name : String} (text : String)
    (h : (join dir name).utf8ByteSize ≤ Disk.pathLimit) :
    fileText dir (name, text.toUTF8) = .ok text := by
  rw [fileText, if_neg (Nat.not_lt.2 h), fromUTF8?_toUTF8]
  rfl

theorem fileText_of_not_readable {dir : String} {file : String × ByteArray}
    (h : ¬ Readable dir file) :
    fileText dir file = .error
      (if (join dir file.1).utf8ByteSize ≤ Disk.pathLimit then .notUtf8 else .nameTooLong) := by
  rw [fileText]
  by_cases hsize : (join dir file.1).utf8ByteSize ≤ Disk.pathLimit
  · have hutf8 : String.fromUTF8? file.2 = none := by
      refine dif_neg fun hvalid => h ⟨⟨String.fromUTF8 file.2 hvalid, rfl⟩, hsize⟩
    rw [if_neg (Nat.not_lt.2 hsize), if_pos hsize, hutf8]
    rfl
  · rw [if_pos (Nat.not_le.1 hsize), if_neg hsize]

theorem readFiles_cons_of_ok {dir text : String} {file : String × ByteArray}
    (h : fileText dir file = .ok text) (mode : SplitMode) (files : List (String × ByteArray)) :
    readFiles dir mode (file :: files) =
      (readFiles dir mode files).map (queriesOf file.1 mode text ++ ·) := by
  rw [readFiles, h]
  cases readFiles dir mode files <;> rfl

theorem readFiles_cons_of_error {dir : String} {cause : SystemError} {file : String × ByteArray}
    (h : fileText dir file = .error cause) (mode : SplitMode)
    (files : List (String × ByteArray)) :
    readFiles dir mode (file :: files) = .error (.unreadable (join dir file.1) cause) := by
  rw [readFiles, h]
  rfl

/-- Texts are cut into their queries one after the other. -/
theorem readFiles_texts {dir : String} (mode : SplitMode) {texts : List (String × String)}
    (h : ∀ f ∈ texts, (join dir f.1).utf8ByteSize ≤ Disk.pathLimit) :
    readFiles dir mode (texts.map fun f => (f.1, f.2.toUTF8)) =
      .ok (texts.flatMap fun f => queriesOf f.1 mode f.2) := by
  induction texts with
  | nil => rfl
  | cons f texts ih =>
    rw [List.forall_mem_cons] at h
    rw [List.map_cons, readFiles_cons_of_ok (fileText_of_text f.2 h.1), ih h.2]
    rfl

/-- Files that are readable are texts. -/
theorem exists_texts {dir : String} {files : List (String × ByteArray)}
    (h : ∀ f ∈ files, Readable dir f) :
    ∃ texts : List (String × String), files = texts.map (fun f => (f.1, f.2.toUTF8)) ∧
      ∀ f ∈ texts, (join dir f.1).utf8ByteSize ≤ Disk.pathLimit := by
  induction files with
  | nil => exact ⟨[], rfl, by simp⟩
  | cons f files ih =>
    rw [List.forall_mem_cons] at h
    obtain ⟨⟨⟨text, htext⟩, hsize⟩, hfiles⟩ := h
    obtain ⟨texts, rfl, hsizes⟩ := ih hfiles
    refine ⟨(f.1, text) :: texts, by rw [List.map_cons, ← htext], ?_⟩
    rw [List.forall_mem_cons]
    exact ⟨hsize, hsizes⟩

/-- Where not all files are readable, one of them is the first that is not. -/
theorem exists_first_not_readable {dir : String} {files : List (String × ByteArray)}
    (h : ¬ ∀ f ∈ files, Readable dir f) :
    ∃ before name content after, files = before ++ (name, content) :: after ∧
      (∀ f ∈ before, Readable dir f) ∧ ¬ Readable dir (name, content) := by
  induction files with
  | nil => simp at h
  | cons f files ih =>
    by_cases hf : Readable dir f
    · rw [List.forall_mem_cons] at h
      obtain ⟨before, name, content, after, rfl, hbefore, hfirst⟩ :=
        ih fun hfiles => h ⟨hf, hfiles⟩
      refine ⟨f :: before, name, content, after, rfl, ?_, hfirst⟩
      rw [List.forall_mem_cons]
      exact ⟨hf, hbefore⟩
    · exact ⟨[], f.1, f.2, files, rfl, by simp, hf⟩

/-- The first file that is not readable stops the reading. -/
theorem readFiles_append_of_not_readable {dir : String} (mode : SplitMode)
    {before after : List (String × ByteArray)} {file : String × ByteArray}
    (hbefore : ∀ f ∈ before, Readable dir f) (hfile : ¬ Readable dir file) :
    readFiles dir mode (before ++ file :: after) = .error (.unreadable (join dir file.1)
      (if (join dir file.1).utf8ByteSize ≤ Disk.pathLimit then .notUtf8 else .nameTooLong)) := by
  induction before with
  | nil => exact readFiles_cons_of_error (fileText_of_not_readable hfile) mode after
  | cons f before ih =>
    rw [List.forall_mem_cons] at hbefore
    obtain ⟨⟨⟨text, htext⟩, hsize⟩, hbefore⟩ := hbefore
    have hok : fileText dir f = .ok text := by
      rw [← fileText_of_text text hsize, ← htext]
    rw [List.cons_append, readFiles_cons_of_ok hok, ih hbefore]
    rfl

/-! ## Reading from the disk -/

/-- A file in the directory is read by its joined path. -/
theorem readText_join {d : Disk} {dir : String} {place : Place}
    (hreaches : d.Reaches dir place) {name : String} {content : ByteArray}
    (hget : d.get? (place.child name) = some (.file content)) :
    d.readText (join dir name) = fileText dir (name, content) := by
  obtain ⟨hname, hsize⟩ := Disk.isName_of_get? hget
  rw [fileText]
  -- A path over the limit is refused before it is followed, whatever stands there.
  by_cases hlong : Disk.pathLimit < (join dir name).utf8ByteSize
  · have hnul := nul_not_mem_join (Disk.passable_of_resolve hreaches).nul hname
    rw [if_pos hlong]
    simp only [Disk.readText, Disk.readBytes, Disk.resolve_of_long hnul hlong]
  · have hresolve := hreaches.resolve_join_found hname ⟨hsize, Nat.not_lt.1 hlong⟩ hget
      (by simp) .reach
    rw [if_neg hlong]
    simp only [Disk.readText, Disk.readBytes, hresolve]
    cases String.fromUTF8? content <;> rfl

/-- A question to the disk is answered by the disk the machine has. -/
theorem run_ask_bind {α β : Type} (question : Disk → α)
    (f : α → ExceptT ReadError (StateM Machine) β) (machine : Machine) :
    ((monadLift (Machine.ask question) : ExceptT ReadError (StateM Machine) α) >>= f).run.run
      machine = (f (question machine.disk)).run.run machine :=
  rfl

theorem run_readOne_of_ok {machine : Machine} {path text : String}
    (h : machine.disk.readText path = .ok text) (mode : SplitMode) :
    (readOne Machine.host path mode).run.run machine =
      (.ok (queriesOf (label path) mode text), machine) := by
  refine (run_ask_bind (·.readText path) _ machine).trans ?_
  rw [h]
  rfl

theorem run_readOne_of_error {machine : Machine} {path : String} {cause : SystemError}
    (h : machine.disk.readText path = .error cause) (mode : SplitMode) :
    (readOne Machine.host path mode).run.run machine =
      (.error (.unreadable path cause), machine) := by
  refine (run_ask_bind (·.readText path) _ machine).trans ?_
  rw [h]
  rfl

/-- Files of the directory are read as they are given. -/
theorem run_readEach {machine : Machine} {dir : String} {place : Place}
    (hreaches : machine.disk.Reaches dir place) (mode : SplitMode)
    {files : List (String × ByteArray)}
    (hfiles : ∀ f ∈ files, machine.disk.get? (place.child f.1) = some (.file f.2)) :
    (readEach Machine.host dir mode (files.map Prod.fst)).run.run machine =
      (readFiles dir mode files, machine) := by
  induction files with
  | nil => rfl
  | cons f files ih =>
    rw [List.forall_mem_cons] at hfiles
    have hread := readText_join hreaches hfiles.1
    have hname := (Disk.isName_of_get? hfiles.1).1
    have hlabel : label (join dir f.1) = f.1 := by
      rw [label, fileName?_join (Disk.passable_of_resolve hreaches).nonempty hname]
      rfl
    rw [List.map_cons, readEach]
    cases htext : fileText dir f with
    | error cause =>
      rw [Report.run_run_bind_of_error (run_readOne_of_error (hread.trans htext) mode),
        readFiles_cons_of_error htext]
    | ok text =>
      rw [Report.run_run_bind_of_ok (run_readOne_of_ok (hread.trans htext) mode), hlabel,
        readFiles_cons_of_ok htext]
      have hrest := ih hfiles.2
      cases hfound : readFiles dir mode files with
      | error cause =>
        rw [hfound] at hrest
        exact Report.run_run_bind_of_error hrest _
      | ok queries =>
        rw [hfound] at hrest
        exact Report.run_run_bind_of_ok hrest _

/-- Reading a directory is reading the files that are selected in it. -/
theorem run_read {machine : Machine} {path : String} {place : Place}
    (hreaches : machine.disk.Reaches path place) {options : Options}
    {files : List (String × ByteArray)}
    (hfiles : SelectedFiles machine.disk place options.skip files) :
    (read Machine.host path options).run.run machine =
      (readFiles path options.split files, machine) := by
  have hdirectory : machine.disk.isDirectory path = true := by
    rw [Disk.Reaches] at hreaches
    rw [Disk.isDirectory, Disk.find?, hreaches]
  have hfile := Disk.isFile_eq_false_of_isDirectory hdirectory
  have hlisted : machine.disk.regularFiles path = .ok (machine.disk.filesInside place) := by
    rw [Disk.Reaches] at hreaches
    rw [Disk.regularFiles, hreaches]
  -- The listing is sorted, and so are the files, so they come in the same order.
  have hnames : files.map Prod.fst =
      (machine.disk.filesInside place).filter (!isSkipped options.skip ·) := by
    obtain ⟨files', hfiles', hnames⟩ := exists_selectedFiles machine.disk place options.skip
    rw [hfiles.unique hfiles' fun _ _ => Iff.rfl, hnames]
  have hrun : (read Machine.host path options).run.run machine =
      (readEach Machine.host path options.split
        ((machine.disk.filesInside place).filter (!isSkipped options.skip ·))).run.run machine := by
    refine (run_ask_bind (·.isFile path) _ machine).trans ?_
    rw [hfile]
    refine (run_ask_bind (·.isDirectory path) _ machine).trans ?_
    rw [hdirectory]
    refine (run_ask_bind (·.regularFiles path) _ machine).trans ?_
    rw [hlisted]
  rw [hrun, ← hnames]
  exact run_readEach hreaches options.split fun f hf => ((hfiles.mem f.1 f.2).1 hf).1

/-- A path that leads nowhere is refused. -/
theorem run_read_of_missing {machine : Machine} {path : String} {cause : SystemError}
    (h : machine.disk.resolve .reach path = .error cause) (options : Options) :
    (read Machine.host path options).run.run machine = (.error (.invalidPath path), machine) := by
  have hnothing : machine.disk.find? path = none := by rw [Disk.find?, h]
  have hfile : machine.disk.isFile path = false := by rw [Disk.isFile, hnothing]
  have hdirectory : machine.disk.isDirectory path = false := by rw [Disk.isDirectory, hnothing]
  refine (run_ask_bind (·.isFile path) _ machine).trans ?_
  rw [hfile]
  refine (run_ask_bind (·.isDirectory path) _ machine).trans ?_
  rw [hdirectory]
  rfl

/-! ## Nothing but the selected files matters -/

/-- Reading a directory gives the queries of its selected files, file after file in the order of
    their names, or fails with the first of them that is no text or has too long a path. Two
    directories in which the same files are selected read alike, whatever else stands in them or
    below them. -/
theorem directory_reads_selected_files (path : String) (options : Options) :
    (∀ machine place, machine.disk.Reaches path place →
      ∃ files, SelectedFiles machine.disk place options.skip files ∧
        ((∀ f ∈ files, Readable path f) →
          ∃ texts : List (String × String), files = texts.map (fun f => (f.1, f.2.toUTF8)) ∧
            (read Machine.host path options).run.run machine =
              (.ok (texts.flatMap fun f => queriesOf f.1 options.split f.2), machine)) ∧
        ((¬ ∀ f ∈ files, Readable path f) →
          ∃ before name content after, files = before ++ (name, content) :: after ∧
            (∀ f ∈ before, Readable path f) ∧ ¬ Readable path (name, content) ∧
            (read Machine.host path options).run.run machine =
              (.error (.unreadable (join path name)
                (if (join path name).utf8ByteSize ≤ Disk.pathLimit then .notUtf8
                  else .nameTooLong)), machine))) ∧
    (∀ machine machine' place place',
      machine.disk.Reaches path place → machine'.disk.Reaches path place' →
      (∀ name content, Selected machine.disk place options.skip name content ↔
        Selected machine'.disk place' options.skip name content) →
      ((read Machine.host path options).run.run machine).1 =
        ((read Machine.host path options).run.run machine').1) := by
  refine ⟨?_, ?_⟩
  · intro machine place hreaches
    obtain ⟨files, hfiles, -⟩ := exists_selectedFiles machine.disk place options.skip
    refine ⟨files, hfiles, ?_, ?_⟩
    · intro hreadable
      obtain ⟨texts, rfl, hsizes⟩ := exists_texts hreadable
      exact ⟨texts, rfl, by rw [run_read hreaches hfiles, readFiles_texts _ hsizes]⟩
    · intro hnot
      obtain ⟨before, name, content, after, rfl, hbefore, hfirst⟩ :=
        exists_first_not_readable hnot
      refine ⟨before, name, content, after, rfl, hbefore, hfirst, ?_⟩
      rw [run_read hreaches hfiles, readFiles_append_of_not_readable _ hbefore hfirst]
  · intro machine machine' place place' hreaches hreaches' hsame
    obtain ⟨files, hfiles, -⟩ := exists_selectedFiles machine.disk place options.skip
    obtain ⟨files', hfiles', -⟩ := exists_selectedFiles machine'.disk place' options.skip
    rw [run_read hreaches hfiles, run_read hreaches' hfiles',
      hfiles.unique hfiles' hsame]

/-- A directory with two files to be read beside a backup that is no text, a link, and a directory
    with a file that is no text. It reads like the two files alone, and fails where backups are
    read too. -/
theorem directory_reads_selected_files_among_others :
    let inputs := Place.here.child "in"
    let alone : Disk := { entries := [(inputs, .directory),
      (inputs.child "b.sql", .file "SELECT b FROM u".toUTF8),
      (inputs.child "a.sql", .file "SELECT a FROM t".toUTF8)] }
    let disk : Disk := { entries := alone.entries ++ [(inputs.child "a.bak", .file ⟨#[0xFF]⟩),
      (inputs.child "0.sql", .link "a.bak"), (inputs.child "sub", .directory),
      ((inputs.child "sub").child "c.sql", .file ⟨#[0xFF]⟩)] }
    let outcome (d : Disk) (skip : List String) :=
      ((read Machine.host "in" { skip }).run.run (.ofDisk d "noon")).1
    disk.Reaches "in" inputs ∧
      outcome disk ["*.bak"] = .ok [⟨"a.sql", "SELECT a FROM t"⟩, ⟨"b.sql", "SELECT b FROM u"⟩] ∧
      outcome alone ["*.bak"] = outcome disk ["*.bak"] ∧
      outcome disk [] = .error (.unreadable "in/a.bak" .notUtf8) := by
  intro inputs alone disk outcome
  let files := [("a.sql", "SELECT a FROM t".toUTF8), ("b.sql", "SELECT b FROM u".toUTF8)]
  have hname : IsName "in" := by decide
  have hreaches : disk.Reaches "in" inputs :=
    (Disk.resolve_of_isName hname (by decide) .reach).2 _ rfl (by simp)
  have hreaches' : alone.Reaches "in" inputs :=
    (Disk.resolve_of_isName hname (by decide) .reach).2 _ rfl (by simp)
  have hfiles : SelectedFiles disk inputs ["*.bak"] files := by
    refine selectedFiles_of_perm (by decide +kernel) (by decide +kernel) ?_
    rw [List.forall_mem_cons, List.forall_mem_singleton]
    exact ⟨rfl, rfl⟩
  have hfiles' : SelectedFiles alone inputs ["*.bak"] files := by
    refine selectedFiles_of_perm (by decide +kernel) (by decide +kernel) ?_
    rw [List.forall_mem_cons, List.forall_mem_singleton]
    exact ⟨rfl, rfl⟩
  have hall : SelectedFiles disk inputs [] (("a.bak", ⟨#[0xFF]⟩) :: files) := by
    refine selectedFiles_of_perm (by decide +kernel) (by decide +kernel) ?_
    rw [List.forall_mem_cons, List.forall_mem_cons, List.forall_mem_singleton]
    exact ⟨rfl, rfl, rfl⟩
  have hreadable : ∀ f ∈ files, Readable "in" f := by
    rw [List.forall_mem_cons, List.forall_mem_singleton]
    exact ⟨⟨⟨"SELECT a FROM t", rfl⟩, by decide +kernel⟩, ⟨"SELECT b FROM u", rfl⟩,
      by decide +kernel⟩
  have hbackup : ¬ Readable "in" ("a.bak", ⟨#[0xFF]⟩) := by
    rintro ⟨⟨text, htext⟩, -⟩
    have hvalid := text.isValidUTF8
    rw [← String.toUTF8_eq_toByteArray, ← htext] at hvalid
    exact absurd hvalid (by decide +kernel)
  obtain ⟨hread, hsame⟩ := directory_reads_selected_files "in" { skip := ["*.bak"] }
  obtain ⟨hreadAll, -⟩ := directory_reads_selected_files "in" { skip := [] }
  refine ⟨hreaches, ?_, ?_, ?_⟩
  · obtain ⟨found, hfound, hok, -⟩ := hread (.ofDisk disk "noon") inputs hreaches
    obtain rfl := hfound.unique hfiles fun _ _ => Iff.rfl
    obtain ⟨texts, htexts, hrun⟩ := hok hreadable
    have hwritten : Function.Injective fun f : String × String => (f.1, f.2.toUTF8) := by
      intro f g h
      obtain ⟨hname, htext⟩ := Prod.mk.inj h
      exact Prod.ext hname (String.toByteArray_inj.1 htext)
    have hpairs : texts = [("a.sql", "SELECT a FROM t"), ("b.sql", "SELECT b FROM u")] :=
      List.map_injective_iff.2 hwritten htexts.symm
    refine (congrArg Prod.fst hrun).trans (congrArg Except.ok ?_)
    rw [hpairs]
    decide +kernel
  · refine hsame _ _ inputs inputs hreaches' hreaches fun name content => ?_
    exact (hfiles'.mem name content).symm.trans (hfiles.mem name content)
  · obtain ⟨found, hfound, -, hfail⟩ := hreadAll (.ofDisk disk "noon") inputs hreaches
    obtain rfl := hfound.unique hall fun _ _ => Iff.rfl
    obtain ⟨before, name, content, after, hsplit, hbefore, -, hrun⟩ :=
      hfail fun hread => hbackup (hread _ List.mem_cons_self)
    cases before with
    | nil =>
      cases hsplit
      refine (congrArg Prod.fst hrun).trans ?_
      decide +kernel
    | cons first before =>
      obtain ⟨rfl, -⟩ := List.cons_eq_cons.1 hsplit
      exact absurd (hbefore _ List.mem_cons_self) hbackup

/-- A directory whose one file is a text, but under too long a path; and a directory that the path
    reaches through a directory inside, where nothing is left to read without that one. -/
theorem directory_read_by_unfit_path :
    let text := "SELECT a FROM t"
    let files := [("a.sql", text.toUTF8)]
    let inputs := Place.here.child "in"
    let single : Disk := { entries := [(Place.here.child "a.sql", .file text.toUTF8)] }
    let without : Disk :=
      { entries := [(inputs, .directory), (inputs.child "a.sql", .file text.toUTF8)] }
    let within : Disk := { entries := without.entries ++ [(inputs.child "sub", .directory)] }
    let outcome (d : Disk) (path : String) :=
      ((read Machine.host path {}).run.run (.ofDisk d "noon")).1
    (single.Reaches (dotSlashes 4090) .here ∧
      SelectedFiles single .here [] files ∧
      outcome single (dotSlashes 4090) =
        .error (.unreadable (dotSlashes 4090 ++ "a.sql") .nameTooLong)) ∧
    SelectedFiles within inputs [] files ∧ SelectedFiles without inputs [] files ∧
      outcome within "in/sub/.." = .ok [⟨"a.sql", text⟩] ∧
      outcome without "in/sub/.." = .error (.invalidPath "in/sub/..") := by
  intro text files inputs single without within outcome
  have hfiles : SelectedFiles single .here [] files := by
    refine selectedFiles_of_perm (by decide +kernel) (by decide +kernel) ?_
    rw [List.forall_mem_singleton]
    rfl
  have hfilesWithin : SelectedFiles within inputs [] files := by
    refine selectedFiles_of_perm (by decide +kernel) (by decide +kernel) ?_
    rw [List.forall_mem_singleton]
    rfl
  have hfilesWithout : SelectedFiles without inputs [] files := by
    refine selectedFiles_of_perm (by decide +kernel) (by decide +kernel) ?_
    rw [List.forall_mem_singleton]
    rfl
  have hreaches : single.Reaches (dotSlashes 4090) .here :=
    Disk.reaches_dotSlashes single (by decide)
  have hpath : Disk.Passable "in/sub/.." := ⟨by decide, by decide, by decide⟩
  have hsteps : Disk.steps "in/sub/.." = [⟨"in", true⟩, ⟨"sub", true⟩, ⟨"..", false⟩] := by
    decide +kernel
  have hstart : Disk.startOf .here "in/sub/.." = .here := by decide
  have hreachesWithin : within.Reaches "in/sub/.." inputs := by
    apply Disk.reaches_of_leads hpath
    rw [hsteps, hstart]
    exact .down (by decide) (by decide) (by decide) rfl
      (.down (by decide) (by decide) (by decide) rfl (.up .stay))
  have hmissing : without.resolve .reach "in/sub/.." = .error .notFound := by
    have hdown : without.get? (Place.here.child "in") = some .directory := rfl
    rw [Disk.resolve_of_passable hpath, hsteps, hstart,
      Disk.walk_down (by decide) (by decide) (by decide) hdown (.inr rfl), Disk.walk,
      if_neg (by decide), if_neg (by decide), if_neg (by simp), if_neg (by decide)]
    rfl
  refine ⟨⟨hreaches, hfiles, ?_⟩, hfilesWithin, hfilesWithout, ?_, ?_⟩
  · have hlong : Disk.pathLimit < (join (dotSlashes 4090) "a.sql").utf8ByteSize := by
      rw [join_dotSlashes 4089, String.utf8ByteSize_append, utf8ByteSize_dotSlashes]
      decide
    have hunreadable : ¬ Readable (dotSlashes 4090) ("a.sql", text.toUTF8) :=
      fun h => absurd h.2 (Nat.not_le.2 hlong)
    have hrun := @run_read (.ofDisk single "noon") _ _ hreaches {} _ hfiles
    refine (congrArg Prod.fst hrun).trans ?_
    rw [← join_dotSlashes 4089]
    refine (readFiles_cons_of_error (fileText_of_not_readable hunreadable) _ []).trans ?_
    rw [if_neg (Nat.not_le.2 hlong)]
  · have hrun := @run_read (.ofDisk within "noon") _ _ hreachesWithin {} _ hfilesWithin
    refine (congrArg Prod.fst hrun).trans ?_
    decide +kernel
  · exact congrArg Prod.fst (@run_read_of_missing (.ofDisk without "noon") _ _ hmissing {})

end Source

end QueryLint

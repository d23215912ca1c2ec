/-
  QueryLint.Proofs.ReportFiles

  What a run leaves on the disk. The first report makes the directory ready: it is made, and
  the reports of an earlier run are swept away. From then on each report is written where
  nothing stands, so the reports in the directory are those of the run, and nothing else is
  touched.

  `Checker.run_leaves_reports` states it for a writer that has not written yet. The names and
  paths of the reports must fit, and nothing but files may stand in their places once the
  directory is made; `Checker.run_into_unfit_directory` shows runs without either.
-/
import QueryLint.Dialect.Registry
import QueryLint.Proofs.Batch
import QueryLint.Proofs.ReportWriting

namespace QueryLint

/-- The path leads to a directory, or it can be made and then does. -/
def Disk.Provides (d : Disk) (dir : String) (made : Disk) (place : Place) : Prop :=
  made = d ∧ d.Reaches dir place ∨
    d.createDirectories dir = (.ok (), made) ∧ made.Reaches dir place

namespace Checker

open Report Disk

theorem mem_reviews {c : Checker} {qs : List Query} {r : Report} :
    r ∈ c.reviews qs ↔ ∃ i q, qs[i]? = some q ∧ r = c.review (i + 1) q := by
  rw [reviews, reviewsFrom, List.mem_mapIdx]
  constructor
  · rintro ⟨i, hi, rfl⟩
    exact ⟨i, qs[i], List.getElem?_eq_getElem hi, by rw [Nat.add_comm]⟩
  · rintro ⟨i, q, hq, rfl⟩
    obtain ⟨hi, rfl⟩ := List.getElem?_eq_some_iff.1 hq
    exact ⟨i, hi, by rw [Nat.add_comm]⟩

theorem nodup_id_reviewsFrom (c : Checker) (id : Nat) (qs : List Query) :
    ((c.reviewsFrom id qs).map Report.id).Nodup := by
  have hids : (c.reviewsFrom id qs).map Report.id = List.range' id qs.length := by
    induction qs generalizing id with
    | nil => rfl
    | cons q qs ih =>
      rw [reviewsFrom_cons, List.map_cons, ih, List.length_cons, List.range'_succ]
      rfl
  rw [hids]
  exact List.nodup_range'

/-- A run of at least one query into a directory that is there or can be made. Once it is
    there, nothing but files stands in the places of the run's reports, and the names and paths
    of these reports and of those found there fit. Then the run succeeds. Afterwards the
    reports among the files of the directory are those of the run, each with its own content;
    every other place is as it was once the directory was made; and making it added nothing but
    directories on the way where nothing stood. -/
theorem run_leaves_reports (c : Checker) (timestamp : String) {qs : List Query} (hqs : qs ≠ [])
    {machine : Machine} {dir : String} {made : Disk} {place : Place}
    (hdir : machine.disk.Provides dir made place)
    (honly : ∀ i, 1 ≤ i → i ≤ qs.length → ∀ entry,
      made.get? (place.child (fileName i)) = some entry → ∃ content, entry = .file content)
    (hfits : ∀ i, 1 ≤ i → i ≤ qs.length → Fits dir (fileName i))
    (hstale : ∀ name content, IsReportName name →
      made.get? (place.child name) = some (.file content) → Fits dir name) :
    ∃ summary final,
      ((c.run timestamp (Report.write Machine.host) qs).run.run ⟨dir, false⟩).run machine =
        ((.ok summary, ⟨dir, true⟩), { machine with disk := final }) ∧
      (∀ name content,
        IsReportName name ∧ final.get? (place.child name) = some (.file content) ↔
          ∃ i q, qs[i]? = some q ∧ name = fileName (i + 1) ∧
            content = (c.review (i + 1) q).print.toUTF8) ∧
      (∀ p, (∀ i < qs.length, p ≠ place.child (fileName (i + 1))) →
        (∀ name content, IsReportName name → p = place.child name →
          made.get? p ≠ some (.file content)) →
        final.get? p = made.get? p) ∧
      ∀ p, made.get? p = machine.disk.get? p ∨
        machine.disk.get? p = none ∧ made.get? p = some .directory ∧
          ∃ path ∈ Path.ancestors dir, made.Reaches path p := by
  -- A directory that is there is as good as one just made.
  have hmade : machine.disk.createDirectories dir = (.ok (), made) ∧ made.Reaches dir place := by
    rcases hdir with ⟨rfl, hreaches⟩ | hmade
    · exact ⟨hreaches.createDirectories_eq, hreaches⟩
    · exact hmade
  have hgrows := createDirectories_grows machine.disk dir
  rw [hmade.1] at hgrows
  have hbounds : ∀ r ∈ c.reviews qs, 1 ≤ r.id ∧ r.id ≤ qs.length := by
    intro r hr
    obtain ⟨i, q, hq, rfl⟩ := mem_reviews.1 hr
    obtain ⟨hi, -⟩ := List.getElem?_eq_some_iff.1 hq
    exact ⟨Nat.le_add_left 1 i, hi⟩
  have hne : c.reviews qs ≠ [] := by
    rw [← List.length_pos_iff, reviews, length_reviewsFrom]
    exact List.length_pos_iff.2 hqs
  obtain ⟨final, hexec, hreports, hother⟩ := exec_writeAll_fresh hne (c.nodup_id_reviewsFrom 1 qs)
    hmade.1 hmade.2
    (fun r hr => honly r.id (hbounds r hr).1 (hbounds r hr).2)
    (fun r hr => hfits r.id (hbounds r hr).1 (hbounds r hr).2) hstale
  refine ⟨(c.reviews qs).foldl Summary.record (.empty c.dialect.name timestamp), final, ?_, ?_, ?_,
    hgrows⟩
  · show exec (c.run timestamp (Report.write Machine.host) qs) ⟨dir, false⟩ machine = _
    rw [run, runFrom_eq, ← reviews, exec_bind hexec]
    rfl
  · intro name content
    rw [hreports]
    constructor
    · rintro ⟨r, hr, hname, hcontent⟩
      obtain ⟨i, q, hq, rfl⟩ := mem_reviews.1 hr
      exact ⟨i, q, hq, hname, hcontent⟩
    · rintro ⟨i, q, hq, hname, hcontent⟩
      exact ⟨c.review (i + 1) q, mem_reviews.2 ⟨i, q, hq, rfl⟩, hname, hcontent⟩
  · intro p hnew
    apply hother
    intro r hr
    obtain ⟨i, q, hq, rfl⟩ := mem_reviews.1 hr
    obtain ⟨hi, -⟩ := List.getElem?_eq_some_iff.1 hq
    exact hnew i hi

/-- A directory with an old report, a link named like a report and another file. -/
theorem run_leaves_reports_over_stale :
    let c := Checker.mk .ansi false
    let q : Query := ⟨"a.sql", "SELECT a FROM t"⟩
    let out := Place.here.child "out"
    let disk : Disk := { entries := [(out, .directory), (out.child "query_07.json", .file .empty),
      (out.child "notes.txt", .file .empty), (out.child "query_9.json", .link "notes.txt")] }
    disk.Provides "out" disk out ∧ ∃ summary final,
      ((c.run "noon" (Report.write Machine.host) [q]).run.run ⟨"out", false⟩).run
        (.ofDisk disk "noon") = ((.ok summary, ⟨"out", true⟩), .ofDisk final "noon") ∧
      final.get? (out.child "query_1.json") = some (.file (c.review 1 q).print.toUTF8) ∧
      (∀ content, final.get? (out.child "query_07.json") ≠ some (.file content)) ∧
      final.get? (out.child "query_9.json") = some (.link "notes.txt") ∧
      final.get? (out.child "notes.txt") = some (.file .empty) := by
  intro c q out disk
  have hreaches : disk.Reaches "out" out := by
    have hleads : Leads disk linkLimit .here [⟨"out", false⟩] linkLimit out :=
      .down (by decide) (by decide) (by decide) rfl .stay
    have hsteps : steps "out" = [⟨"out", false⟩] := by decide +kernel
    apply reaches_of_leads ⟨by decide, by decide, by decide⟩
    rw [hsteps]
    exact hleads
  have hdir : disk.Provides "out" disk out := .inl ⟨rfl, hreaches⟩
  have hone : ∀ i, 1 ≤ i → i ≤ [q].length → i = 1 := fun i hlow hhigh => Nat.le_antisymm hhigh hlow
  have hfirst : Fits "out" (fileName 1) := ⟨by decide, by decide +kernel⟩
  have honly : ∀ i, 1 ≤ i → i ≤ [q].length → ∀ entry,
      disk.get? (out.child (fileName i)) = some entry → ∃ content, entry = .file content := by
    intro i hlow hhigh entry hget
    obtain rfl := hone i hlow hhigh
    cases hget
  have hfits : ∀ i, 1 ≤ i → i ≤ [q].length → Fits "out" (fileName i) := by
    intro i hlow hhigh
    rw [hone i hlow hhigh]
    exact hfirst
  have hstale : ∀ name content, IsReportName name →
      disk.get? (out.child name) = some (.file content) → Fits "out" name := by
    intro name content _ hget
    have hmem : name ∈ ["query_07.json", "notes.txt"] :=
      List.mem_mergeSort.1 (mem_filesInside_iff.2 ⟨content, hget⟩)
    simp only [List.mem_cons, List.not_mem_nil, or_false] at hmem
    rcases hmem with rfl | rfl
    · exact ⟨by decide, by decide +kernel⟩
    · exact ⟨by decide, by decide +kernel⟩
  have hunwritten : ∀ name, name ≠ "query_1.json" →
      ∀ i < [q].length, out.child name ≠ out.child (fileName (i + 1)) := by
    intro name hname i hi heq
    rw [hone (i + 1) (Nat.le_add_left 1 i) hi] at heq
    exact hname (Place.child_inj.1 heq)
  obtain ⟨summary, final, hrun, hreports, hother, -⟩ :=
    @run_leaves_reports c "noon" [q] (List.cons_ne_nil q []) (.ofDisk disk "noon") "out" disk out
      hdir honly hfits hstale
  refine ⟨hdir, summary, final, hrun, ?_, ?_, ?_, ?_⟩
  · exact ((hreports "query_1.json" _).2 ⟨0, q, rfl, rfl, rfl⟩).2
  · intro content hget
    obtain ⟨i, q', hq', hname, -⟩ :=
      (hreports "query_07.json" content).1 ⟨isFileName_iff.1 (by decide), hget⟩
    obtain ⟨hi, -⟩ := List.getElem?_eq_some_iff.1 hq'
    rw [hone (i + 1) (Nat.le_add_left 1 i) hi] at hname
    exact absurd hname (by decide)
  · refine hother _ (hunwritten "query_9.json" (by decide)) ?_
    intro _ _ _ _ hfile
    cases hfile
  · refine hother _ (hunwritten "notes.txt" (by decide)) ?_
    intro name _ hreport hname _
    obtain rfl := Place.child_inj.1 hname
    exact absurd (isFileName_iff.2 hreport) (by decide)

end Checker

/-! ## Directories that reports do not fit into -/

/-- The working directory with slashes behind it. -/
def Path.dotSlashes (n : Nat) : String :=
  String.ofList ('.' :: List.replicate n '/')

namespace Path

theorem toList_dotSlashes (n : Nat) :
    (dotSlashes n).toList = '.' :: List.replicate n '/' :=
  String.toList_ofList

theorem dotSlashes_succ (n : Nat) : dotSlashes (n + 1) = dotSlashes n ++ "/" := by
  rw [dotSlashes, List.replicate_succ', ← List.cons_append, String.ofList_append]
  rfl

theorem utf8ByteSize_dotSlashes (n : Nat) : (dotSlashes n).utf8ByteSize = n + 1 := by
  induction n with
  | zero => decide
  | succ n ih =>
    rw [dotSlashes_succ, String.utf8ByteSize_append, ih]
    rfl

theorem names_dotSlashes (n : Nat) : names (dotSlashes n) = ["."] := by
  induction n with
  | zero => decide +kernel
  | succ n ih =>
    have hsplit : (dotSlashes (n + 1)).toList = ('.' :: List.replicate n '/') ++ '/' :: [] := by
      rw [toList_dotSlashes, List.replicate_succ', List.cons_append]
    rw [names_of_toList hsplit, ← dotSlashes, ih]
    decide +kernel

theorem join_dotSlashes (n : Nat) (name : String) :
    join (dotSlashes (n + 1)) name = dotSlashes (n + 1) ++ name := by
  have hslash : endsWithSlash (dotSlashes (n + 1)) = true := by
    rw [endsWithSlash, toList_dotSlashes, List.replicate_succ', ← List.cons_append]
    exact beq_iff_eq.2 List.getLast?_concat
  rw [join, hslash, Bool.or_true, if_pos rfl]

end Path

namespace Disk

open QueryLint.Path

theorem reaches_dotSlashes (d : Disk) {n : Nat} (hn : n < pathLimit) :
    d.Reaches (dotSlashes n) .here := by
  have hpath : Passable (dotSlashes n) := by
    refine ⟨?_, ?_, ?_⟩
    · rw [toList_dotSlashes]
      simp
    · intro hempty
      have hlist := congrArg String.toList hempty
      rw [toList_dotSlashes] at hlist
      cases hlist
    · rw [utf8ByteSize_dotSlashes]
      exact hn
  have hleads : Leads d linkLimit (startOf .here (dotSlashes n)) (steps (dotSlashes n))
      linkLimit .here := by
    have hstart : startOf .here (dotSlashes n) = .here := by
      rw [startOf, isAbsolute, toList_dotSlashes]
      rfl
    rw [hstart, steps, names_dotSlashes]
    exact .dot .stay
  exact reaches_of_leads hpath hleads

end Disk

namespace Checker

open Report Disk

/-- There is something to write for every report. -/
theorem isEmpty_print (r : Report) : r.print.toUTF8.isEmpty = false := by
  have hne : r.print ≠ "" := by
    intro hempty
    have hlist := congrArg String.toList hempty
    rw [show r.print = String.ofList (Json.pretty 0 r.toJson) from rfl,
      String.toList_ofList] at hlist
    cases hlist
  exact beq_eq_false_iff_ne.2 fun hsize => hne (String.utf8ByteSize_eq_zero_iff.1 hsize)

/-- A run fails with its first report. -/
theorem run_of_write_error {c : Checker} {q : Query} {w w' : Writer} {machine machine' : Machine}
    {e : WriteError}
    (h : exec ((c.review 1 q).write Machine.host) w machine = ((.error e, w'), machine'))
    (timestamp : String) (qs : List Query) :
    (((c.run timestamp (Report.write Machine.host) (q :: qs)).run.run w).run machine).1.1 =
      .error e := by
  show (exec (c.run timestamp (Report.write Machine.host) (q :: qs)) w machine).1.1 = _
  rw [run, runFrom, exec_bind_of_error h]

theorem run_of_unprepared (c : Checker) (timestamp : String) (q : Query) (qs : List Query)
    {dir : String} {machine machine' : Machine} {e : WriteError}
    (h : exec (prepare Machine.host dir) ⟨dir, false⟩ machine =
      ((.error e, ⟨dir, false⟩), machine')) :
    (((c.run timestamp (Report.write Machine.host) (q :: qs)).run.run ⟨dir, false⟩).run
      machine).1.1 = .error e := by
  have hwrite : exec ((c.review 1 q).write Machine.host) ⟨dir, false⟩ machine =
      ((.error e, ⟨dir, false⟩), machine') := by
    rw [write, exec_bind (exec_get _ _)]
    simp only [Bool.not_false, if_true]
    rw [exec_bind_of_error h]
  exact run_of_write_error hwrite timestamp qs

theorem run_of_unwritable (c : Checker) (timestamp : String) (q : Query) (qs : List Query)
    {dir : String} {machine machine' : Machine} {e : SystemError}
    (hprepare : exec (prepare Machine.host dir) ⟨dir, false⟩ machine =
      ((.ok (), ⟨dir, false⟩), machine'))
    (hwrite : machine'.disk.writeBytes (Path.join dir (fileName 1)) (c.review 1 q).print.toUTF8 =
      .error e) :
    (((c.run timestamp (Report.write Machine.host) (q :: qs)).run.run ⟨dir, false⟩).run
      machine).1.1 = .error (.unwritable (Path.join dir (fileName 1)) e) := by
  have hfailed : machine'.disk.outcome (machine'.disk.writeBytes
      (Path.join dir (fileName (c.review 1 q).id)) (c.review 1 q).print.toUTF8) =
        (.error e, machine'.disk) := by
    rw [show (c.review 1 q).id = 1 from rfl, hwrite, outcome]
  have hfirst := exec_write_fresh (c.review 1 q) hprepare
  rw [exec_write_ready _ hfailed] at hfirst
  exact run_of_write_error hfirst timestamp qs

/-- Nothing is written where the first report's path is too long. -/
theorem run_of_long_report (c : Checker) (timestamp : String) (q : Query) (qs : List Query)
    {machine : Machine} {dir : String} {place : Place}
    (hreaches : machine.disk.Reaches dir place)
    (hstale : ∀ name content, IsReportName name →
      machine.disk.get? (place.child name) = some (.file content) → Fits dir name)
    (hlong : pathLimit < (Path.join dir (fileName 1)).utf8ByteSize) :
    (((c.run timestamp (Report.write Machine.host) (q :: qs)).run.run ⟨dir, false⟩).run
      machine).1.1 = .error (.unwritable (Path.join dir (fileName 1)) .nameTooLong) := by
  obtain ⟨swept, hprepare, -⟩ :=
    exec_prepare (w := ⟨dir, false⟩) hreaches.createDirectories_eq hreaches hstale
  have hnul := Path.nul_not_mem_join (passable_of_resolve hreaches).nul
    (isReportName_fileName 1).isName
  exact run_of_unwritable c timestamp q qs hprepare
    (changeAt_of_error _ (resolve_of_long hnul hlong swept .write))

/-- Nothing is written where what stands in the place of the first report does not take it. -/
theorem run_of_refusal (c : Checker) (timestamp : String) (q : Query) (qs : List Query)
    {machine : Machine} {dir : String} {made : Disk} {place : Place}
    (hmade : machine.disk.createDirectories dir = (.ok (), made))
    (hreaches : made.Reaches dir place) (hfits : Fits dir (fileName 1))
    (hstale : ∀ name content, IsReportName name →
      made.get? (place.child name) = some (.file content) → Fits dir name)
    {entry : Entry} (hget : made.get? (place.child (fileName 1)) = some entry)
    (hfile : ∀ content, entry ≠ .file content) (hlink : ∀ target, entry ≠ .link target)
    {e : SystemError}
    (hrefuses : ∀ (d : Disk) p h, d.writeTo (c.review 1 q).print.toUTF8 (.found p entry) h =
      .error e) :
    (((c.run timestamp (Report.write Machine.host) (q :: qs)).run.run ⟨dir, false⟩).run
      machine).1.1 = .error (.unwritable (Path.join dir (fileName 1)) e) := by
  obtain ⟨swept, hprepare, hswept, -, hkept⟩ :=
    exec_prepare (w := ⟨dir, false⟩) hmade hreaches hstale
  -- Only files are swept away, so what does not take the report is still in its place.
  have hstays : swept.get? (place.child (fileName 1)) = some entry := by
    rw [hkept, hget]
    intro _ content _ _ hstands
    rw [hget] at hstands
    exact hfile content (Option.some.inj hstands)
  have hfound :=
    hswept.resolve_join_found (isReportName_fileName 1).isName hfits hstays hlink .write
  exact run_of_unwritable c timestamp q qs hprepare
    ((changeAt_of_ok _ hfound).trans (hrefuses _ _ _))

/-- Nothing is written where the path of a report of an earlier run is too long. -/
theorem run_of_long_stale (c : Checker) (timestamp : String) (q : Query) (qs : List Query)
    {machine : Machine} {dir : String} {place : Place}
    (hreaches : machine.disk.Reaches dir place) {name : String} {names : List String}
    (hfiles : machine.disk.filesInside place = name :: names) (hname : IsReportName name)
    (hlong : pathLimit < (Path.join dir name).utf8ByteSize) :
    (((c.run timestamp (Report.write Machine.host) (q :: qs)).run.run ⟨dir, false⟩).run
      machine).1.1 = .error (.unwritable (Path.join dir name) .nameTooLong) := by
  have hnul := Path.nul_not_mem_join (passable_of_resolve hreaches).nul hname.isName
  have hremove : machine.disk.outcome (machine.disk.removeFile (Path.join dir name)) =
      (.error .nameTooLong, machine.disk) := by
    simp only [removeFile, resolve_of_long hnul hlong, outcome]
  have hprepare : exec (prepare Machine.host dir) ⟨dir, false⟩ machine =
      ((.error (.unwritable (Path.join dir name) .nameTooLong), ⟨dir, false⟩), machine) := by
    have hfailed := exec_attempt (w := ⟨dir, false⟩) (Path.join dir name)
      (fun d => d.outcome (d.removeFile (Path.join dir name))) hremove
    rw [exec_prepare_eq hreaches.createDirectories_eq hreaches, hfiles, removeReports,
      if_pos (isFileName_iff.2 hname)]
    exact exec_bind_of_error hfailed _
  exact run_of_unprepared c timestamp q qs hprepare

/-- Where there are no files, none of them is an old report. -/
theorem fits_of_no_files {d : Disk} (h : ∀ e ∈ d.entries, ∀ content, e.2 ≠ .file content)
    {dir : String} {place : Place} (name : String) (content : ByteArray) (_ : IsReportName name)
    (hget : d.get? (place.child name) = some (.file content)) : Fits dir name :=
  absurd rfl (h _ (mem_entries_of_get? (place.child_names_ne_nil name) hget) content)

/-- A disk with a directory in the place of the first report. -/
def directoryInPlace : Disk where
  entries := [(Place.here.child "query_1.json", .directory)]

/-- A path that goes through the place of its first report and back. -/
theorem createDirectories_through_report :
    Disk.empty.createDirectories "query_1.json/.." = (.ok (), directoryInPlace) ∧
      directoryInPlace.Reaches "query_1.json/.." .here := by
  have hpath : Passable "query_1.json/.." := ⟨by decide, by decide, by decide⟩
  have hname : Path.IsName "query_1.json" := (isReportName_fileName 1).isName
  have hsteps : steps "query_1.json/.." = [⟨"query_1.json", true⟩, ⟨"..", false⟩] := by
    decide +kernel
  have hstart : startOf .here "query_1.json/.." = .here := by decide
  have hmissing : ∀ purpose, Disk.empty.resolve purpose "query_1.json/.." = .error .notFound := by
    intro purpose
    rw [resolve_of_passable hpath, hsteps, hstart, walk, if_neg hname.dot, if_neg hname.up,
      if_neg (by simp), if_neg (by decide)]
    rfl
  have hfree : Disk.empty.resolve .name "query_1.json" =
      .ok (.free (Place.here.child "query_1.json")) :=
    (resolve_of_isName hname (by decide) .name).1 rfl
  have hreaches : directoryInPlace.Reaches "query_1.json/.." .here := by
    have hleads : Leads directoryInPlace linkLimit .here
        [⟨"query_1.json", true⟩, ⟨"..", false⟩] linkLimit .here :=
      .down hname.dot hname.up (by decide) rfl (.up .stay)
    apply reaches_of_leads hpath
    rw [hsteps, hstart]
    exact hleads
  have hparents : makeDirectories false ["query_1.json"] Disk.empty =
      (.ok (), directoryInPlace) := by
    rw [makeDirectories, show Path.ofComponents false ["query_1.json"].reverse = "query_1.json" by
      decide +kernel, ensureAfter, ensureDirectory, makeDirectory, makeEntry,
      changeAt_of_ok _ hfree]
    rfl
  have hfirst : Disk.empty.ensureDirectory "query_1.json/.." = (.error .notFound, Disk.empty) := by
    simp only [ensureDirectory, makeDirectory, makeEntry, changeAt_of_error _ (hmissing .name),
      isDirectory, find?, hmissing, Bool.false_eq_true, if_false]
  refine ⟨?_, hreaches⟩
  rw [createDirectories, if_neg (by decide), ensureAfter, hfirst,
    show Path.isAbsolute "query_1.json/.." = false by decide,
    show (Path.components "query_1.json/..").dropLast.reverse = ["query_1.json"] by decide +kernel]
  simp only [hparents, hreaches.ensureDirectory_eq]

/-- Four directories that are there or can be made and hold no report but a file. Making the
    first puts a directory in the place of the report; the paths of the report in the second and
    of an old report in the third are too long; in the fourth a device with no room stands in
    the place of the report. -/
theorem run_into_unfit_directory :
    let outcome (d : Disk) (dir : String) := ((((Checker.mk .ansi false).run "noon"
      (Report.write Machine.host) [⟨"a.sql", "SELECT a FROM t"⟩]).run.run ⟨dir, false⟩).run
        (.ofDisk d "noon")).1.1
    let stale : Disk := { entries := [(Place.here.child "query_01.json", .file .empty)] }
    let crowded : Disk := { entries := [(Place.here.child "query_1.json", .device .full)] }
    (∃ made, Disk.empty.Provides "query_1.json/.." made .here ∧
      Disk.empty.get? (Place.here.child "query_1.json") = none ∧
      outcome .empty "query_1.json/.." =
        .error (.unwritable "query_1.json/../query_1.json" .isDirectory)) ∧
    (Disk.empty.Provides (Path.dotSlashes 4090) .empty .here ∧
      outcome .empty (Path.dotSlashes 4090) =
        .error (.unwritable (Path.dotSlashes 4090 ++ "query_1.json") .nameTooLong)) ∧
    (stale.Provides (Path.dotSlashes 4082) stale .here ∧
      Fits (Path.dotSlashes 4082) "query_1.json" ∧
      outcome stale (Path.dotSlashes 4082) =
        .error (.unwritable (Path.dotSlashes 4082 ++ "query_01.json") .nameTooLong)) ∧
    crowded.Provides "." crowded .here ∧
      outcome crowded "." = .error (.unwritable "./query_1.json" .noSpace) := by
  intro outcome stale crowded
  have hsize : ∀ n name, (Path.dotSlashes (n + 1) ++ name).utf8ByteSize =
      n + 2 + name.utf8ByteSize := by
    intro n name
    rw [String.utf8ByteSize_append, Path.utf8ByteSize_dotSlashes]
  have hcrowded : crowded.Reaches "." .here := reaches_dotSlashes crowded (n := 0) (by decide)
  refine ⟨⟨_, .inr createDirectories_through_report, rfl, ?_⟩, ⟨.inl ⟨rfl, ?_⟩, ?_⟩,
    ⟨.inl ⟨rfl, ?_⟩, ?_, ?_⟩, .inl ⟨rfl, hcrowded⟩, ?_⟩
  · obtain ⟨hmade, hreaches⟩ := createDirectories_through_report
    exact run_of_refusal _ _ _ _ hmade hreaches ⟨by decide, by decide +kernel⟩
      (fits_of_no_files (by simp [directoryInPlace])) rfl (fun _ h => nomatch h)
      (fun _ h => nomatch h) fun _ _ _ => rfl
  · exact reaches_dotSlashes _ (by decide)
  · have hreaches : (Machine.ofDisk .empty "noon").disk.Reaches (Path.dotSlashes 4090) .here :=
      reaches_dotSlashes _ (by decide)
    rw [← Path.join_dotSlashes 4089]
    refine run_of_long_report _ _ _ _ hreaches
      (fits_of_no_files (by simp [Machine.ofDisk, Disk.empty])) ?_
    rw [Path.join_dotSlashes 4089, hsize]
    decide
  · exact reaches_dotSlashes _ (by decide)
  · refine ⟨by decide, ?_⟩
    rw [Path.join_dotSlashes 4081, hsize]
    decide
  · have hreaches : (Machine.ofDisk stale "noon").disk.Reaches (Path.dotSlashes 4082) .here :=
      reaches_dotSlashes _ (by decide)
    have hfiles : stale.filesInside .here = ["query_01.json"] := List.mergeSort_singleton _
    rw [← Path.join_dotSlashes 4081]
    refine run_of_long_stale _ _ _ _ hreaches hfiles (isFileName_iff.1 (by decide)) ?_
    rw [Path.join_dotSlashes 4081, hsize]
    decide
  · have hmade := hcrowded.createDirectories_eq
    refine run_of_refusal _ _ _ _ hmade hcrowded ⟨by decide, by decide +kernel⟩
      (fits_of_no_files (by simp [crowded])) rfl (fun _ h => nomatch h)
      (fun _ h => nomatch h) fun _ _ _ => ?_
    rw [writeTo, Device.write, isEmpty_print, if_neg Bool.false_ne_true]
    rfl

end Checker

end QueryLint

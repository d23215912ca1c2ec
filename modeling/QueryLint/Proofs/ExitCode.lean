/-
  QueryLint.Proofs.ExitCode

  When a run of `check` ends with the number 0, and with which files. Each step of the run meets
  a relation between disks, and these in sequence are what the run meets
  (`meets_carryOut_check`). How it ends is read off the totals, by which a query has failed
  exactly if one has a diagnostic (`hasFailures_totals_eq_false_iff`).
-/
import QueryLint.Command.Run
import QueryLint.Proofs.DiskRelations
import QueryLint.Proofs.ReportFiles

namespace QueryLint

/-! ## Totals of a run -/

namespace Checker

/-- The totals of a run that reviews all queries. -/
def totals (c : Checker) (timestamp : String) (qs : List Query) : Summary :=
  { Summary.empty c.dialect.name timestamp with
    processed := qs.length
    passed := qs.countP fun q => (c.diagnose q.sql).isEmpty
    failed := qs.length - qs.countP fun q => (c.diagnose q.sql).isEmpty }

theorem foldl_record_reviews (c : Checker) (timestamp : String) (qs : List Query) :
    (c.reviews qs).foldl Summary.record (.empty c.dialect.name timestamp) =
      c.totals timestamp qs := by
  rw [Summary.foldl_record, reviews, length_reviewsFrom, countP_isSuccess_reviewsFrom]
  simp [Summary.empty, totals]

theorem hasFailures_totals_eq_false_iff (c : Checker) (timestamp : String) (qs : List Query) :
    (c.totals timestamp qs).hasFailures = false ↔ ∀ q ∈ qs, c.diagnose q.sql = [] := by
  have hle : (qs.countP fun q => (c.diagnose q.sql).isEmpty) ≤ qs.length := List.countP_le_length
  have hall : (qs.countP fun q => (c.diagnose q.sql).isEmpty) = qs.length ↔
      ∀ q ∈ qs, c.diagnose q.sql = [] := by
    simp only [List.countP_eq_length, List.isEmpty_iff]
  rw [Summary.hasFailures, decide_eq_false_iff_not, ← hall]
  show ¬ 0 < qs.length - qs.countP (fun q => (c.diagnose q.sql).isEmpty) ↔ _
  omega

end Checker

/-! ## Showing and writing reports -/

namespace Report

/-- The reports written into the directory, one after the other. -/
def writeEach (dir : String) (rs : List Report) (d : Disk) : Except SystemError Disk :=
  rs.foldlM (fun d r => d.writeBytes (Path.join dir (fileName r.id)) r.print.toUTF8) d

/-- The reports are written into the directory, which is made ready before the first. -/
def WrittenInto (dir : String) (rs : List Report) (d d' : Disk) : Prop :=
  if rs.isEmpty then d = d' else ∃ ready, MadeReady dir d ready ∧ writeEach dir rs ready = .ok d'

end Report

namespace Command

open Report

variable {clock : String}

/-- Showing a report leaves the disk to its writing. -/
theorem meets_deliver {w : Writer} {r : Report} {P : Disk → Unit × Writer → Disk → Prop}
    (h : Meets clock (startedWith w (r.write Machine.host)) P) (colours : Bool) :
    Meets clock (startedWith w (deliver Machine.host colours r)) P := by
  intro machine hclock
  exact h { machine with stdout := machine.stdout ++ asLines (reportLines colours r) } hclock

theorem meets_deliverAll_ready (colours : Bool) (dir : String) (rs : List Report) :
    Meets clock (startedWith ⟨dir, true⟩ (forM rs (deliver Machine.host colours))) fun d u d' =>
      writeEach dir rs d = .ok d' ∧ ((), ⟨dir, true⟩) = u := by
  induction rs with
  | nil =>
    refine (meets_pure ((), Writer.mk dir true)).congr fun d u d' => ?_
    show _ ↔ Except.ok d = .ok d' ∧ _
    rw [Except.ok.injEq, and_comm]
  | cons r rs ih =>
    rw [List.forM_cons, startedWith_bind]
    refine ((meets_deliver (meets_write_ready dir r) colours).andThen ih).congr fun d u d' => ?_
    rw [writeEach, foldlM_cons_eq_ok_iff, ← exists_and_right]
    simp only [and_assoc, writeEach]

theorem meets_deliverAll (colours : Bool) (dir : String) (rs : List Report) :
    Meets clock (startedWith ⟨dir, false⟩ (forM rs (deliver Machine.host colours))) fun d u d' =>
      WrittenInto dir rs d d' ∧ ((), ⟨dir, !rs.isEmpty⟩) = u := by
  cases rs with
  | nil => exact (meets_pure ((), Writer.mk dir false)).congr fun d u d' => and_comm
  | cons r rs =>
    -- The first report makes the directory ready, so the others find it so.
    rw [List.forM_cons, startedWith_bind]
    refine ((meets_deliver (meets_write_fresh dir r) colours).andThen
      (meets_deliverAll_ready colours dir rs)).congr fun d u d' => ?_
    constructor
    · rintro ⟨e, ⟨ready, hready, hwritten⟩, hrest, hu⟩
      exact ⟨⟨ready, hready, foldlM_cons_eq_ok_iff.2 ⟨e, hwritten, hrest⟩⟩, hu⟩
    · rintro ⟨⟨ready, hready, hall⟩, hu⟩
      obtain ⟨e, hwritten, hrest⟩ := foldlM_cons_eq_ok_iff.1 hall
      exact ⟨e, ⟨ready, hready, hwritten⟩, hrest, hu⟩

/-! ## The steps of a run -/

theorem meets_step {ε α : Type} {action : StateM Machine (Except ε α)}
    {P : Disk → α → Disk → Prop} (fail : ε → RunError) (h : Meets clock (ExceptT.mk action) P) :
    Meets clock (step fail action) P := by
  intro machine hclock
  obtain ⟨hclock', hP⟩ := h machine hclock
  exact ⟨hclock', fun a disk => (and_congr_left fun _ => mapError_eq_ok_iff).trans (hP a disk)⟩

theorem meets_remark (condition : Bool) (line : String) :
    Meets clock (remark Machine.host condition line) fun d _ d' => d = d' := by
  cases condition with
  | true => exact meets_err _
  | false => exact (meets_pure ()).congr fun d u d' => by simp

/-- The settings of a run: those of the file that is given, or of the default file if it is
    there, or else the default. -/
def SettingsFor (config : Option String) (d : Disk) (s : Settings) : Prop :=
  match config with
  | some path => Settings.StoredAt d path s
  | none =>
    if d.contains defaultSettingsFile = true then Settings.StoredAt d defaultSettingsFile s
    else s = .default

theorem meets_loadSettings (colours verbose : Bool) (config : Option String) :
    Meets clock (loadSettings Machine.host colours verbose config) fun d s d' =>
      SettingsFor config d s ∧ d = d' := by
  cases config with
  | some path => exact meets_step _ (Settings.meets_load path)
  | none =>
    have hload := meets_step (.settings defaultSettingsFile)
      (@Settings.meets_load clock defaultSettingsFile)
    have hdefault := (meets_pure Settings.default).after
      (@meets_remark clock verbose (tint colours .yellow "No config file found, using defaults"))
    have hfound := Meets.ask_bind (·.contains defaultSettingsFile) fun found =>
      hload.ite found hdefault
    refine hfound.congr fun d s d' => ?_
    rw [SettingsFor]
    split
    · exact Iff.rfl
    · rw [eq_comm]

theorem meets_readQueries (path : String) (s : Settings) :
    Meets clock (readQueries Machine.host path s) fun d qs d' =>
      Source.ReadFrom d path (.ofSettings s) qs ∧ d = d' :=
  meets_step _ (Source.meets_read path (.ofSettings s))

theorem meets_reviewAll (colours : Bool) (checker : Checker) (dir : String) (queries : List Query) :
    Meets clock (reviewAll Machine.host colours checker dir queries) fun d summary d' =>
      WrittenInto dir (checker.reviews queries) d d' ∧ checker.totals clock queries = summary := by
  have hrun : Meets clock (startedWith ⟨dir, false⟩ (checker.run clock
      (deliver Machine.host colours) queries)) fun d u d' =>
      ∃ e, WrittenInto dir (checker.reviews queries) d e ∧
        (checker.totals clock queries, ⟨dir, !(checker.reviews queries).isEmpty⟩) = u ∧ e = d' := by
    rw [Checker.run, Checker.runFrom_eq, ← Checker.reviews, Checker.foldl_record_reviews,
      startedWith_bind]
    simp only [startedWith_pure]
    exact (meets_deliverAll colours dir _).andThen (meets_pure _)
  refine (meets_now.andThen (meets_step (.output dir) (meets_run' hrun))).congr
    fun d summary d' => ?_
  simp

/-- The summary is written, if a file for it is set. -/
def SavedTo (file : Option String) (summary : Summary) (d d' : Disk) : Prop :=
  match file with
  | none => d = d'
  | some path => d.writeBytes path summary.print.toUTF8 = .ok d'

theorem meets_saveSummary (colours verbose : Bool) (summary : Summary) (file : Option String) :
    Meets clock (saveSummary Machine.host colours verbose summary file) fun d _ d' =>
      SavedTo file summary d d' := by
  cases file with
  | none => exact (meets_pure ()).congr fun d u d' => and_iff_right rfl
  | some path =>
    have hwrite := meets_step (.summary path) (@meets_change clock fun d =>
      d.outcome (d.writeBytes path summary.print.toUTF8))
    refine (hwrite.bind fun _ _ _ _ => meets_remark _ _).congr fun d u d' => ?_
    constructor
    · rintro ⟨_, _, hwritten, rfl⟩
      exact outcome_eq_ok_iff.1 hwritten
    · intro hwritten
      exact ⟨(), d', outcome_eq_ok_iff.2 hwritten, rfl⟩

/-- With these settings `check` comes to its end, from one disk to another: the dialect is known,
    the queries are read, the reports and the summary are written, and the end is as the totals
    and the settings have it. -/
def Completes (clock : String) (s : Settings) (path : String) (d : Disk) (exit : Exit)
    (d' : Disk) : Prop :=
  ∃ dialect queries reported, Dialect.resolve s.dialect = .ok dialect ∧
    Source.ReadFrom d path (.ofSettings s) queries ∧
    WrittenInto s.outputDir (Checker.reviews ⟨dialect, s.extendedChecks⟩ queries) d reported ∧
    SavedTo s.summaryFile (Checker.totals ⟨dialect, s.extendedChecks⟩ clock queries) reported d' ∧
    exitFor s (Checker.totals ⟨dialect, s.extendedChecks⟩ clock queries) = exit

theorem meets_check (colours verbose : Bool) (s : Settings) (path : String) :
    Meets clock (check Machine.host colours verbose s path) (Completes clock s path) := by
  unfold check
  cases hdialect : Dialect.resolve s.dialect with
  | error cause => exact (meets_throw _).congr fun d exit d' => by simp [Completes, hdialect]
  | ok dialect =>
    -- The steps from the last to the first, each with what comes after it.
    have hend := fun summary =>
      (@meets_saveSummary clock colours verbose summary s.summaryFile).bind
        fun _ _ _ _ => (meets_pure (exitFor s summary)).after
          (meets_out (asLines (summaryLines colours summary s.outputDir)))
    have hreviewed := fun queries =>
      (meets_reviewAll colours ⟨dialect, s.extendedChecks⟩ s.outputDir queries).bind
        fun summary _ _ _ => hend summary
    have hread := (meets_readQueries path s).bind fun queries _ _ _ => (hreviewed queries).after
      (meets_remark queries.isEmpty (tint colours .yellow "No queries found"))
    refine ((hread.after (meets_remark _ _)).after (meets_remark _ _)).congr fun d exit d' => ?_
    constructor
    · rintro ⟨queries, _, ⟨hqueries, rfl⟩, _, reported, ⟨hwritten, rfl⟩, _, _, hsaved, rfl, rfl⟩
      exact ⟨dialect, queries, reported, hdialect, hqueries, hwritten, hsaved, rfl⟩
    · rintro ⟨_, queries, reported, hresolve, hqueries, hwritten, hsaved, rfl⟩
      cases hdialect.symm.trans hresolve
      exact ⟨queries, d, ⟨hqueries, rfl⟩, _, reported, ⟨hwritten, rfl⟩, (), d', hsaved, rfl, rfl⟩

/-- A run of `check` that nothing stops: the settings are loaded, the dialect is known, the
    queries are read, and the reports and the summary are written. Where the command line and the
    settings both say something, the command line wins. -/
structure Finishes (config : Option String) (args : CheckArguments) (clock : String) (d : Disk)
    (settings : Settings) (dialect : Dialect) (queries : List Query) (reported saved : Disk) :
    Prop where
  settingsLoaded : SettingsFor config d settings
  dialectKnown : Dialect.resolve (args.dialect.getD settings.dialect) = .ok dialect
  queriesRead : Source.ReadFrom d args.path
    ⟨args.split.getD settings.split, settings.skipFiles⟩ queries
  reportsWritten : WrittenInto (args.output.getD settings.outputDir)
    (Checker.reviews ⟨dialect, args.extended || settings.extendedChecks⟩ queries) d reported
  summarySaved : SavedTo (args.summary.or settings.summaryFile)
    (Checker.totals ⟨dialect, args.extended || settings.extendedChecks⟩ clock queries)
    reported saved

theorem meets_carryOut_check (colours verbose : Bool) (config : Option String)
    (args : CheckArguments) :
    Meets clock (carryOut Machine.host colours ⟨config, verbose, .check args⟩) fun d exit d' =>
      ∃ settings dialect queries reported,
        Finishes config args clock d settings dialect queries reported d' ∧
        exitFor (args.applyTo settings) (Checker.totals
          ⟨dialect, args.extended || settings.extendedChecks⟩ clock queries) = exit := by
  refine ((meets_loadSettings colours verbose config).bind fun settings _ _ _ =>
    meets_check colours verbose (args.applyTo settings) args.path).congr fun d exit d' => ?_
  -- The settings with the options applied are spelled out field by field.
  constructor
  · rintro ⟨settings, _, ⟨hsettings, rfl⟩, dialect, queries, reported, hdialect, hqueries,
      hwritten, hsaved, hend⟩
    exact ⟨settings, dialect, queries, reported,
      ⟨hsettings, hdialect, hqueries, hwritten, hsaved⟩, hend⟩
  · rintro ⟨settings, dialect, queries, reported,
      ⟨hsettings, hdialect, hqueries, hwritten, hsaved⟩, hend⟩
    exact ⟨settings, d, ⟨hsettings, rfl⟩, dialect, queries, reported, hdialect, hqueries,
      hwritten, hsaved, hend⟩

/-! ## The number a run ends with -/

/-- A run ends as it is carried out, or fails. -/
theorem exit_runInvocation (colours : Bool) (i : Invocation) (machine : Machine) :
    ((runInvocation Machine.host colours i).run machine).1 =
      match ((carryOut Machine.host colours i).run.run machine).1 with
      | .ok exit => exit
      | .error _ => .failure := by
  rw [runInvocation, StateT.run_bind]
  rcases (carryOut Machine.host colours i).run.run machine with ⟨result, machine'⟩
  cases result with
  | ok exit => rfl
  | error e => rfl

theorem disk_runInvocation (colours : Bool) (i : Invocation) (machine : Machine) :
    ((runInvocation Machine.host colours i).run machine).2.disk =
      ((carryOut Machine.host colours i).run.run machine).2.disk := by
  rw [runInvocation, StateT.run_bind]
  rcases (carryOut Machine.host colours i).run.run machine with ⟨result, machine'⟩
  cases result with
  | ok exit => rfl
  | error e => rfl

/-- A run ends in a way other than failure exactly if the relation that carrying it out meets
    has an end of that kind. -/
theorem exit_eq_iff {colours : Bool} {i : Invocation} {machine : Machine}
    {P : Disk → Exit → Disk → Prop} (h : Meets machine.clock (carryOut Machine.host colours i) P)
    {exit : Exit} (hexit : exit ≠ .failure) :
    ((runInvocation Machine.host colours i).run machine).1 = exit ↔
      ∃ d', P machine.disk exit d' := by
  obtain ⟨-, hP⟩ := h machine rfl
  rw [exit_runInvocation]
  simp only [← hP]
  cases ((carryOut Machine.host colours i).run.run machine).1 with
  | ok e => simp
  | error e => simp [hexit.symm]

theorem Exit.code_eq_zero_iff {exit : Exit} : exit.code = 0 ↔ exit = .success := by
  cases exit <;> decide

theorem Exit.code_eq_one_iff {exit : Exit} : exit.code = 1 ↔ exit = .failure := by
  cases exit <;> decide

theorem exitFor_eq_success_iff {s : Settings} {summary : Summary} :
    exitFor s summary = .success ↔ s.failOnInvalid = false ∨ summary.hasFailures = false := by
  rw [exitFor]
  cases s.failOnInvalid <;> cases summary.hasFailures <;> decide

theorem exitFor_ne_misuse (s : Settings) (summary : Summary) : exitFor s summary ≠ .misuse := by
  rw [exitFor]
  split
  · exact fun h => nomatch h
  · exact fun h => nomatch h

theorem exit_check_ne_misuse (colours verbose : Bool) (config : Option String)
    (args : CheckArguments) (machine : Machine) :
    ((runInvocation Machine.host colours ⟨config, verbose, .check args⟩).run machine).1 ≠
      .misuse := by
  intro hexit
  obtain ⟨_, _, _, _, _, -, hend⟩ :=
    (exit_eq_iff (meets_carryOut_check colours verbose config args) (by decide)).1 hexit
  exact exitFor_ne_misuse _ _ hend

/-- With the options of the command line, failures are let through by the flag or the setting. -/
theorem exitFor_applyTo_eq_success_iff {args : CheckArguments} {settings : Settings}
    {c : Checker} {timestamp : String} {queries : List Query} :
    exitFor (args.applyTo settings) (c.totals timestamp queries) = .success ↔
      args.noFail = true ∨ settings.failOnInvalid = false ∨
        ∀ q ∈ queries, c.diagnose q.sql = [] := by
  rw [exitFor_eq_success_iff, c.hasFailures_totals_eq_false_iff, ← or_assoc]
  show (!args.noFail && settings.failOnInvalid) = false ∨ _ ↔ _
  rw [Bool.and_eq_false_iff, Bool.not_eq_false']

/-- A command line of `check` ends with 0 or 1. It ends with 0 exactly if the settings are
    loaded, the dialect is known, the queries are read, the reports and the summary are written,
    and either failures are let through or no query has a diagnostic. A run that nothing stops
    leaves the disk on which the reports and the summary are written, and where a summary is asked
    for, its file holds the totals, unless a device took them. -/
theorem check_exit_code {words : List String} {config : Option String} {verbose : Bool}
    {args : CheckArguments} (hwords : parse words = .ok ⟨config, verbose, .check args⟩)
    (colours : Bool) (machine : Machine) :
    let ended := (run Machine.host colours words).run machine
    (ended.1.code = 0 ∨ ended.1.code = 1) ∧
    (ended.1.code = 0 ↔ ∃ settings dialect queries reported saved,
      Finishes config args machine.clock machine.disk settings dialect queries reported saved ∧
      (args.noFail = true ∨ settings.failOnInvalid = false ∨ ∀ q ∈ queries,
        Checker.diagnose ⟨dialect, args.extended || settings.extendedChecks⟩ q.sql = [])) ∧
    ∀ settings dialect queries reported saved,
      Finishes config args machine.clock machine.disk settings dialect queries reported saved →
      ended.2.disk = saved ∧
      ∀ path, args.summary.or settings.summaryFile = some path →
        saved.readText path = .ok (Checker.totals
          ⟨dialect, args.extended || settings.extendedChecks⟩ machine.clock queries).print ∨
        ∃ place device, reported.resolve .write path = .ok (.found place (.device device)) := by
  intro ended
  have hended : ended = (runInvocation Machine.host colours
      ⟨config, verbose, .check args⟩).run machine := by
    show (run Machine.host colours words).run machine = _
    rw [run, hwords]
  have hmeets := @meets_carryOut_check machine.clock colours verbose config args
  rw [hended]
  refine ⟨?_, ?_, ?_⟩
  · rw [Exit.code_eq_zero_iff, Exit.code_eq_one_iff]
    cases hexit : ((runInvocation Machine.host colours
        ⟨config, verbose, .check args⟩).run machine).1 with
    | success => exact .inl rfl
    | failure => exact .inr rfl
    | misuse => exact absurd hexit (exit_check_ne_misuse colours verbose config args machine)
  · rw [Exit.code_eq_zero_iff, exit_eq_iff hmeets (by decide)]
    constructor
    · rintro ⟨saved, settings, dialect, queries, reported, hfinishes, hend⟩
      exact ⟨settings, dialect, queries, reported, saved, hfinishes,
        exitFor_applyTo_eq_success_iff.1 hend⟩
    · rintro ⟨settings, dialect, queries, reported, saved, hfinishes, hend⟩
      exact ⟨saved, settings, dialect, queries, reported, hfinishes,
        exitFor_applyTo_eq_success_iff.2 hend⟩
  · intro settings dialect queries reported saved hfinishes
    -- With which number it ends does not matter here: the relation has one disk for the run.
    have hcarried := ((hmeets machine rfl).2 _ saved).2
      ⟨settings, dialect, queries, reported, hfinishes, rfl⟩
    refine ⟨(disk_runInvocation colours _ machine).trans hcarried.2, fun path hpath => ?_⟩
    have hsaved := hfinishes.summarySaved
    rw [hpath] at hsaved
    exact Disk.readText_of_writeBytes hsaved

/-- A file with one query that passes, whose summary is asked for, and the same command line where
    the file is missing. -/
theorem check_exit_code_found_missing :
    let words := ["check", "q.sql", "-o", ".", "--summary", "s.json"]
    let disk : Disk := { entries := [(Place.here.child "q.sql", .file "SELECT a FROM t".toUTF8)] }
    let ended (d : Disk) := (run Machine.host false words).run (.ofDisk d "noon")
    (ended disk).1.code = 0 ∧
      (ended disk).2.disk.readText "s.json" = .ok (Summary.print
        { Summary.empty "ansi" "noon" with processed := 1, passed := 1, failed := 0 }) ∧
      (ended .empty).1.code = 1 := by
  intro words disk ended
  have hwords : parse words = .ok ⟨none, false, .check
      { path := "q.sql", output := some ".", summary := some "s.json" }⟩ := by decide +kernel
  have hname : Path.IsName "q.sql" := by decide
  have hfound : disk.resolve .reach "q.sql" =
      .ok (.found (Place.here.child "q.sql") (.file "SELECT a FROM t".toUTF8)) :=
    (Disk.resolve_of_isName hname (by decide) .reach).2 _ rfl fun _ h => nomatch h
  have hsettings : SettingsFor none disk .default := by
    have hdefault : Path.IsName defaultSettingsFile := by decide
    have hnothing : disk.get? (Place.here.child defaultSettingsFile) = none := rfl
    have hfree := (Disk.resolve_of_isName hdefault (by decide) .reach).1 hnothing
    simp [SettingsFor, Disk.contains, Disk.find?, hfree]
  have hqueries : Source.ReadFrom disk "q.sql" ⟨.statement, []⟩
      [⟨"q.sql", "SELECT a FROM t"⟩] := by
    have hfile : disk.isFile "q.sql" = true := by simp only [Disk.isFile, Disk.find?, hfound]
    rw [Source.ReadFrom, if_pos hfile]
    exact ⟨_, Disk.readText_of_resolve hfound, by decide +kernel⟩
  obtain ⟨reported, hwritten, hfree⟩ : ∃ reported, WrittenInto "." (Checker.reviews ⟨.ansi, false⟩
      [⟨"q.sql", "SELECT a FROM t"⟩]) disk reported ∧
        reported.get? (Place.here.child "s.json") = none := by
    have hdot : Path.dotSlashes 0 = "." := by decide
    have hreaches : disk.Reaches "." .here := hdot ▸ disk.reaches_dotSlashes (by decide)
    have hfiles : disk.regularFiles "." = .ok ["q.sql"] := by
      rw [Disk.Reaches] at hreaches
      simp only [Disk.regularFiles, hreaches]
      exact congrArg _ (List.mergeSort_singleton _)
    have hswept : sweep "." ["q.sql"] disk = .ok disk := by
      rw [sweep, show ["q.sql"].filter isFileName = [] by decide]
      rfl
    obtain ⟨hplace, hput⟩ := hreaches.writeBytes_join (isReportName_fileName 1).isName
      ⟨by decide, by decide +kernel⟩ rfl _
    refine ⟨_, ⟨disk, ⟨disk, _, hreaches.createDirectories_eq, hfiles, hswept⟩,
      foldlM_cons_eq_ok_iff.2 ⟨_, hput, rfl⟩⟩, ?_⟩
    rw [Disk.get?_put, if_neg (by decide)]
    rfl
  have hunused : reported.resolve .write "s.json" = .ok (.free (Place.here.child "s.json")) :=
    (Disk.resolve_of_isName (by decide) (by decide) .write).1 hfree
  obtain ⟨saved, hsaved, -⟩ := Disk.TakesFile.writeBytes ⟨_, hunused, .free⟩
    ((Checker.mk .ansi false).totals "noon" [⟨"q.sql", "SELECT a FROM t"⟩]).print.toUTF8
  have hpasses : (Checker.mk .ansi false).diagnose "SELECT a FROM t" = [] := by decide +kernel
  have htotals : (Checker.mk .ansi false).totals "noon" [⟨"q.sql", "SELECT a FROM t"⟩] =
      { Summary.empty "ansi" "noon" with processed := 1, passed := 1, failed := 0 } := by
    simp [Checker.totals, hpasses, show Dialect.ansi.name = "ansi" from rfl]
  have hfinishes : Finishes none { path := "q.sql", output := some ".", summary := some "s.json" }
      "noon" disk .default .ansi [⟨"q.sql", "SELECT a FROM t"⟩] reported saved :=
    ⟨hsettings, rfl, hqueries, hwritten, hsaved⟩
  obtain ⟨-, hzero, hends⟩ := check_exit_code hwords false (.ofDisk disk "noon")
  obtain ⟨hdisk, hsummary⟩ := hends _ _ _ _ _ hfinishes
  refine ⟨hzero.2 ⟨_, _, _, _, _, hfinishes, .inr (.inr ?_)⟩, ?_, ?_⟩
  · exact List.forall_mem_singleton.2 hpasses
  · rcases hsummary "s.json" rfl with hread | ⟨place, device, hdevice⟩
    · refine (congrArg (·.readText "s.json") hdisk).trans (hread.trans ?_)
      exact congrArg (fun totals => Except.ok totals.print) htotals
    · rw [hunused] at hdevice
      cases hdevice
  · have hmissing : Disk.empty.resolve .reach "q.sql" = .ok (.free (Place.here.child "q.sql")) :=
      (Disk.resolve_of_isName hname (by decide) .reach).1 rfl
    obtain ⟨hcode, hzero, -⟩ := check_exit_code hwords false (.ofDisk .empty "noon")
    refine hcode.resolve_left fun h => ?_
    obtain ⟨settings, _, queries, _, _, hfinishes, -⟩ := hzero.1 h
    have hread := hfinishes.queriesRead
    simp [Source.ReadFrom, Machine.ofDisk, Disk.isFile, Disk.isDirectory, Disk.find?, hmissing]
      at hread

end Command

end QueryLint

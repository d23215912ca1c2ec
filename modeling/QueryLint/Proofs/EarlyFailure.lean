/-
  QueryLint.Proofs.EarlyFailure

  A run of `check` that fails before its first review leaves no trace: nothing on the standard
  output, and every file as it was. Loading settings and reading queries write nothing wherever
  they end (`Quiet`), so where one of them fails, or the dialect is unknown, the run stops with
  the disk it was given (`Stops`). `Command.early_failure_leaves_no_trace` lists the ways it can
  come to that.
-/
import QueryLint.Proofs.ExitCode

namespace QueryLint

/-! ## Programs that write nothing -/

section Quiet

variable {ε α β : Type}

/-- A program that leaves the disk and the standard output as they are, also where it fails. -/
def Quiet (x : ExceptT ε (StateM Machine) α) : Prop :=
  ∀ machine, (x.run.run machine).2.disk = machine.disk ∧
    (x.run.run machine).2.stdout = machine.stdout

theorem quiet_pure (a : α) : Quiet (pure a : ExceptT ε (StateM Machine) α) :=
  fun _ => ⟨rfl, rfl⟩

theorem quiet_throw (e : ε) : Quiet (throw e : ExceptT ε (StateM Machine) α) :=
  fun _ => ⟨rfl, rfl⟩

theorem quiet_ask (question : Disk → α) :
    Quiet (monadLift (Machine.ask question) : ExceptT ε (StateM Machine) α) :=
  fun _ => ⟨rfl, rfl⟩

theorem quiet_err (text : String) :
    Quiet (monadLift (Machine.host.err text) : ExceptT ε (StateM Machine) Unit) :=
  fun _ => ⟨rfl, rfl⟩

theorem Quiet.bind {x : ExceptT ε (StateM Machine) α} {f : α → ExceptT ε (StateM Machine) β}
    (hx : Quiet x) (hf : ∀ a, Quiet (f a)) : Quiet (x >>= f) := by
  intro machine
  have hquiet := hx machine
  rcases hrun : x.run.run machine with ⟨result, machine'⟩
  rw [hrun] at hquiet
  cases result with
  | error e =>
    rw [Report.run_run_bind_of_error hrun]
    exact hquiet
  | ok a =>
    rw [Report.run_run_bind_of_ok hrun]
    exact ⟨(hf a machine').1.trans hquiet.1, (hf a machine').2.trans hquiet.2⟩

theorem Quiet.ite {x y : ExceptT ε (StateM Machine) α} (hx : Quiet x) (condition : Bool)
    (hy : Quiet y) : Quiet (if condition = true then x else y) := by
  cases condition with
  | true => exact hx
  | false => exact hy

/-- From this disk the program fails, and leaves the disk and the standard output. -/
def Stops (x : ExceptT ε (StateM Machine) α) (d : Disk) : Prop :=
  ∀ machine, machine.disk = d → (∃ e, (x.run.run machine).1 = .error e) ∧
    (x.run.run machine).2.disk = d ∧ (x.run.run machine).2.stdout = machine.stdout

theorem stops_throw (e : ε) (d : Disk) : Stops (throw e : ExceptT ε (StateM Machine) α) d :=
  fun _ hdisk => ⟨⟨e, rfl⟩, hdisk, rfl⟩

/-- A program that writes nothing, before one that stops wherever the first can lead. Where the
    first can lead nowhere, it stops itself. -/
theorem Quiet.bind_stops {x : ExceptT ε (StateM Machine) α}
    {f : α → ExceptT ε (StateM Machine) β} {P : Disk → α → Disk → Prop} {d : Disk} (hx : Quiet x)
    (hmeets : ∀ clock, Meets clock x P) (hf : ∀ a d', P d a d' → Stops (f a) d) :
    Stops (x >>= f) d := by
  rintro machine rfl
  obtain ⟨hdisk, hstdout⟩ := hx machine
  obtain ⟨-, hgives⟩ := hmeets machine.clock machine rfl
  rcases hrun : x.run.run machine with ⟨result, machine'⟩
  rw [hrun] at hdisk hstdout hgives
  cases result with
  | error e =>
    rw [Report.run_run_bind_of_error hrun]
    exact ⟨⟨e, rfl⟩, hdisk, hstdout⟩
  | ok a =>
    rw [Report.run_run_bind_of_ok hrun]
    have hgiven := (hgives a machine'.disk).1 ⟨rfl, rfl⟩
    obtain ⟨herror, hdisk', hstdout'⟩ := hf a machine'.disk hgiven machine' hdisk
    exact ⟨herror, hdisk', hstdout'.trans hstdout⟩

end Quiet

/-! ## Loading settings and reading queries -/

theorem Settings.quiet_load (path : String) :
    Quiet (ExceptT.mk (Settings.load Machine.host path)) := by
  intro machine
  show ((Settings.load Machine.host path).run machine).2.disk = _ ∧
    ((Settings.load Machine.host path).run machine).2.stdout = _
  cases hread : machine.disk.readText path with
  | error cause =>
    rw [Settings.run_load_of_error hread]
    exact ⟨rfl, rfl⟩
  | ok text =>
    rw [Settings.run_load_of_ok hread]
    exact ⟨rfl, rfl⟩

theorem Disk.isFile_eq_false_of_isDirectory {d : Disk} {path : String}
    (h : d.isDirectory path = true) : d.isFile path = false := by
  rw [Disk.isDirectory] at h
  split at h
  · rename_i hfound
    rw [Disk.isFile, hfound]
  · cases h

namespace Source

theorem quiet_readOne (path : String) (mode : SplitMode) :
    Quiet (readOne Machine.host path mode) := by
  rw [readOne]
  refine (quiet_ask (·.readText path)).bind fun read => ?_
  cases read with
  | ok content => exact quiet_pure _
  | error cause => exact quiet_throw _

theorem quiet_readEach (dir : String) (mode : SplitMode) (names : List String) :
    Quiet (readEach Machine.host dir mode names) := by
  induction names with
  | nil => exact quiet_pure _
  | cons name names ih =>
    exact (quiet_readOne _ _).bind fun first => ih.bind fun rest => quiet_pure (first ++ rest)

theorem quiet_read (path : String) (options : Options) :
    Quiet (read Machine.host path options) := by
  rw [read]
  refine (quiet_ask (·.isFile path)).bind fun file => (quiet_readOne _ _).ite file ?_
  refine (quiet_ask (·.isDirectory path)).bind fun directory => Quiet.ite ?_ directory
    (quiet_throw _)
  refine (quiet_ask (·.regularFiles path)).bind fun listed => ?_
  cases listed with
  | ok names => exact quiet_readEach _ _ _
  | error cause => exact quiet_throw _

/-- A path that leads to neither a file nor a directory has no queries. -/
theorem not_readFrom_of_missing {d : Disk} {path : String} (hfile : d.isFile path = false)
    (hdirectory : d.isDirectory path = false) (options : Options) (qs : List Query) :
    ¬ ReadFrom d path options qs := by
  rw [ReadFrom, if_neg (by simp [hfile]), hdirectory]
  rintro ⟨hfound, -⟩
  cases hfound

/-- A file that is not read has no queries. -/
theorem not_readFrom_of_unread {d : Disk} {path : String} {cause : SystemError}
    (hfile : d.isFile path = true) (hread : d.readText path = .error cause) (options : Options)
    (qs : List Query) : ¬ ReadFrom d path options qs := by
  rw [ReadFrom, if_pos hfile]
  rintro ⟨content, hcontent, -⟩
  rw [hread] at hcontent
  cases hcontent

/-- Where one of the files to be read in a directory is not, there are no queries, whatever the
    others hold. -/
theorem not_readFrom_of_unread_inside {d : Disk} {path name : String} {names : List String}
    {options : Options} {cause : SystemError} (hdirectory : d.isDirectory path = true)
    (hlisted : d.regularFiles path = .ok names) (hname : name ∈ names)
    (hselected : isSkipped options.skip name = false)
    (hread : d.readText (Path.join path name) = .error cause) (qs : List Query) :
    ¬ ReadFrom d path options qs := by
  have hfile := Disk.isFile_eq_false_of_isDirectory hdirectory
  rw [ReadFrom, if_neg (by simp [hfile])]
  rintro ⟨-, names', parts, hnames, hparts, -⟩
  cases hlisted.symm.trans hnames
  have hmem : name ∈ names.filter (!isSkipped options.skip ·) := by
    rw [List.mem_filter]
    exact ⟨hname, by rw [hselected]; rfl⟩
  -- Every file to be read has its part, and this one has none.
  obtain ⟨i, hi, rfl⟩ := List.getElem_of_mem hmem
  have hheld := hparts.get hi (hparts.length_eq ▸ hi)
  obtain ⟨content, hcontent, -⟩ := hheld
  rw [List.get_eq_getElem, hread] at hcontent
  cases hcontent

end Source

namespace Command

/-! ## Runs that stop early -/

theorem quiet_step {ε α : Type} {action : StateM Machine (Except ε α)} (fail : ε → RunError)
    (h : Quiet (ExceptT.mk action)) : Quiet (step fail action) :=
  h

theorem quiet_remark (condition : Bool) (line : String) :
    Quiet (remark Machine.host condition line) := by
  cases condition with
  | true => exact quiet_err _
  | false => exact quiet_pure ()

theorem quiet_loadSettings (colours verbose : Bool) (config : Option String) :
    Quiet (loadSettings Machine.host colours verbose config) := by
  cases config with
  | some path => exact quiet_step _ (Settings.quiet_load path)
  | none =>
    exact (quiet_ask (·.contains defaultSettingsFile)).bind fun found =>
      (quiet_step _ (Settings.quiet_load defaultSettingsFile)).ite found
        ((quiet_remark _ _).bind fun _ => quiet_pure Settings.default)

theorem quiet_readQueries (path : String) (s : Settings) :
    Quiet (readQueries Machine.host path s) :=
  quiet_step _ (Source.quiet_read path (.ofSettings s))

/-- The settings file of a run, if it has one: the one that is given, or the default one if it
    is there. -/
def settingsFile? (config : Option String) (d : Disk) : Option String :=
  config.or (if d.contains defaultSettingsFile = true then some defaultSettingsFile else none)

theorem SettingsFor.cases {config : Option String} {d : Disk} {s : Settings}
    (h : SettingsFor config d s) :
    (∃ path, settingsFile? config d = some path ∧ Settings.StoredAt d path s) ∨
      settingsFile? config d = none ∧ s = .default := by
  cases config with
  | some path => exact .inl ⟨path, rfl, h⟩
  | none =>
    rw [settingsFile?, Option.none_or]
    rw [SettingsFor] at h
    by_cases hcontains : d.contains defaultSettingsFile = true
    · rw [if_pos hcontains] at h ⊢
      exact .inl ⟨_, rfl, h⟩
    · rw [if_neg hcontains] at h ⊢
      exact .inr ⟨rfl, h⟩

theorem SettingsFor.storedAt {config : Option String} {d : Disk} {s : Settings} {path : String}
    (h : SettingsFor config d s) (hpath : settingsFile? config d = some path) :
    Settings.StoredAt d path s := by
  obtain ⟨path', hpath', hstored⟩ | ⟨hnone, -⟩ := h.cases
  · cases hpath.symm.trans hpath'
    exact hstored
  · cases hpath.symm.trans hnone

theorem SettingsFor.unique {config : Option String} {d : Disk} {s s' : Settings}
    (h : SettingsFor config d s) (h' : SettingsFor config d s') : s = s' := by
  obtain ⟨path, hpath, text, htext, hs⟩ | ⟨hnone, rfl⟩ := h.cases
  · obtain ⟨text', htext', hs'⟩ := h'.storedAt hpath
    cases htext.symm.trans htext'
    exact Except.ok.inj (hs.symm.trans hs')
  · obtain ⟨path, hpath, -⟩ | ⟨-, rfl⟩ := h'.cases
    · cases hnone.symm.trans hpath
    · rfl

/-- What keeps a run of `check` from its first review. -/
inductive CannotStart (d : Disk) (config : Option String) (args : CheckArguments) : Prop
  | settingsUnread {path : String} {cause : SystemError}
      (hpath : settingsFile? config d = some path) (hread : d.readText path = .error cause)
  | settingsMalformed {path text : String} {fault : Settings.Fault}
      (hpath : settingsFile? config d = some path) (hread : d.readText path = .ok text)
      (hfault : Settings.ofToml text = .error fault)
  | dialectUnknown {settings : Settings} {cause : Dialect.Unknown}
      (hsettings : SettingsFor config d settings)
      (hdialect : Dialect.resolve (args.dialect.getD settings.dialect) = .error cause)
  | inputMissing (hfile : d.isFile args.path = false) (hdirectory : d.isDirectory args.path = false)
  | inputUnread {cause : SystemError} (hfile : d.isFile args.path = true)
      (hread : d.readText args.path = .error cause)
  /-- One of the files to be read in the directory is not, wherever it stands among them. -/
  | memberUnread {settings : Settings} {names : List String} {name : String} {cause : SystemError}
      (hsettings : SettingsFor config d settings) (hdirectory : d.isDirectory args.path = true)
      (hlisted : d.regularFiles args.path = .ok names) (hname : name ∈ names)
      (hselected : Source.isSkipped settings.skipFiles name = false)
      (hread : d.readText (Path.join args.path name) = .error cause)

/-- With the settings of a run that cannot start, the dialect is unknown or no queries are
    read. -/
theorem CannotStart.not_readFrom {d : Disk} {config : Option String} {args : CheckArguments}
    (h : CannotStart d config args) {s : Settings} (hs : SettingsFor config d s)
    {dialect : Dialect} (hknown : Dialect.resolve (args.applyTo s).dialect = .ok dialect)
    (queries : List Query) :
    ¬ Source.ReadFrom d args.path (.ofSettings (args.applyTo s)) queries := by
  cases h with
  | settingsUnread hpath hread =>
    obtain ⟨text, htext, -⟩ := hs.storedAt hpath
    cases hread.symm.trans htext
  | settingsMalformed hpath hread hfault =>
    obtain ⟨text, htext, hparsed⟩ := hs.storedAt hpath
    cases hread.symm.trans htext
    cases hfault.symm.trans hparsed
  | dialectUnknown hsettings hdialect =>
    cases hs.unique hsettings
    cases hdialect.symm.trans hknown
  | inputMissing hfile hdirectory => exact Source.not_readFrom_of_missing hfile hdirectory _ _
  | inputUnread hfile hread => exact Source.not_readFrom_of_unread hfile hread _ _
  | memberUnread hsettings hdirectory hlisted hname hselected hread =>
    cases hs.unique hsettings
    exact Source.not_readFrom_of_unread_inside hdirectory hlisted hname hselected hread _

/-- Whatever comes after the reading of queries, `check` does not come to it. -/
theorem stops_check {s : Settings} {path : String} {d : Disk}
    (h : ∀ dialect, Dialect.resolve s.dialect = .ok dialect →
      ∀ queries, ¬ Source.ReadFrom d path (.ofSettings s) queries) (colours verbose : Bool) :
    Stops (check Machine.host colours verbose s path) d := by
  unfold check
  cases hdialect : Dialect.resolve s.dialect with
  | error cause => exact stops_throw _ d
  | ok dialect =>
    refine (quiet_remark _ _).bind_stops (fun _ => meets_remark _ _) fun _ _ _ => ?_
    refine (quiet_remark _ _).bind_stops (fun _ => meets_remark _ _) fun _ _ _ => ?_
    exact (quiet_readQueries path s).bind_stops (fun _ => meets_readQueries path s)
      fun queries _ hread => absurd hread.1 (h dialect hdialect queries)

theorem CannotStart.stops {d : Disk} {config : Option String} {args : CheckArguments}
    (h : CannotStart d config args) (colours verbose : Bool) :
    Stops (carryOut Machine.host colours ⟨config, verbose, .check args⟩) d :=
  (quiet_loadSettings colours verbose config).bind_stops
    (fun _ => meets_loadSettings colours verbose config) fun _ _ hs =>
      stops_check (fun _ => h.not_readFrom hs.1) colours verbose

/-- A run that stops fails with a report on the standard error output only. -/
theorem runInvocation_of_stops {colours : Bool} {i : Invocation} {machine : Machine}
    (h : Stops (carryOut Machine.host colours i) machine.disk) :
    ((runInvocation Machine.host colours i).run machine).1 = .failure ∧
      ((runInvocation Machine.host colours i).run machine).2.disk = machine.disk ∧
      ((runInvocation Machine.host colours i).run machine).2.stdout = machine.stdout := by
  obtain ⟨⟨e, herror⟩, hdisk, hstdout⟩ := h machine rfl
  rw [runInvocation, StateT.run_bind]
  rcases hrun : (carryOut Machine.host colours i).run.run machine with ⟨result, machine'⟩
  rw [hrun] at herror hdisk hstdout
  cases herror
  exact ⟨rfl, hdisk, hstdout⟩

/-- A run of `check` that cannot start ends with 1, shows nothing on the standard output and
    leaves the disk exactly as it was. -/
theorem early_failure_leaves_no_trace {words : List String} {config : Option String}
    {verbose : Bool} {args : CheckArguments}
    (hwords : parse words = .ok ⟨config, verbose, .check args⟩) {disk : Disk}
    (h : CannotStart disk config args) (colours : Bool) (clock : String) :
    let ended := (run Machine.host colours words).run (.ofDisk disk clock)
    ended.1.code = 1 ∧ ended.2.stdout = "" ∧ ended.2.disk = disk := by
  intro ended
  have hended : ended = (runInvocation Machine.host colours ⟨config, verbose, .check args⟩).run
      (.ofDisk disk clock) := by
    show (run Machine.host colours words).run _ = _
    rw [run, hwords]
  rw [hended, Exit.code_eq_one_iff]
  obtain ⟨hexit, hdisk, hstdout⟩ :=
    @runInvocation_of_stops colours _ (.ofDisk disk clock) (h.stops colours verbose)
  exact ⟨hexit, hstdout, hdisk⟩

/-- The last file of a directory is no text, where a report of an earlier run stands in the
    output directory and a summary is asked for. -/
theorem early_failure_leaves_no_trace_last_file :
    let inputs := Place.here.child "in"
    let reports := Place.here.child "outputs"
    let disk : Disk := { entries := [(inputs, .directory), (reports, .directory),
      (inputs.child "a.sql", .file "SELECT a FROM t".toUTF8),
      (inputs.child "b.sql", .file ⟨#[0xFF]⟩),
      (reports.child "query_1.json", .file "stale".toUTF8)] }
    let ended := (run Machine.host false ["check", "in", "--summary", "s.json"]).run
      (.ofDisk disk "noon")
    disk.readText "in/a.sql" = .ok "SELECT a FROM t" ∧
      disk.readText "in/b.sql" = .error .notUtf8 ∧
      ended.1.code = 1 ∧ ended.2.stdout = "" ∧ ended.2.disk = disk := by
  intro inputs reports disk ended
  have hwords : parse ["check", "in", "--summary", "s.json"] =
      .ok ⟨none, false, .check { path := "in", summary := some "s.json" }⟩ := by decide +kernel
  have hreaches : disk.Reaches "in" inputs :=
    (Disk.resolve_of_isName (by decide) (by decide)
      .reach).2 _ rfl (by simp)
  have hsettings : SettingsFor none disk .default := by
    have hdefault : Path.IsName defaultSettingsFile := by decide
    have hfree := (Disk.resolve_of_isName hdefault (by decide) .reach).1
      (show disk.get? (Place.here.child defaultSettingsFile) = none from rfl)
    simp [SettingsFor, Disk.contains, Disk.find?, hfree]
  have hdirectory : disk.isDirectory "in" = true := by
    rw [Disk.Reaches] at hreaches
    simp only [Disk.isDirectory, Disk.find?, hreaches]
  have hlisted : disk.regularFiles "in" = .ok (disk.filesInside inputs) := by
    rw [Disk.Reaches] at hreaches
    simp only [Disk.regularFiles, hreaches]
  have hgood : disk.readText "in/a.sql" = .ok "SELECT a FROM t" := by
    have hname : Path.IsName "a.sql" := by decide
    exact Disk.readText_of_resolve (hreaches.resolve_join_found hname
      ⟨by decide, by decide +kernel⟩ rfl (by simp) .reach)
  have hbad : disk.readText "in/b.sql" = .error .notUtf8 := by
    have hname : Path.IsName "b.sql" := by decide
    have hresolve : disk.resolve .reach "in/b.sql" = _ := hreaches.resolve_join_found hname
      ⟨by decide, by decide +kernel⟩ rfl (by simp) .reach
    have hutf8 : String.fromUTF8? ⟨#[0xFF]⟩ = none := by decide +kernel
    simp only [Disk.readText, Disk.readBytes, hresolve, hutf8]
  have hmember : "b.sql" ∈ disk.filesInside inputs :=
    Disk.mem_filesInside_iff.2 ⟨⟨#[0xFF]⟩, rfl⟩
  exact ⟨hgood, hbad, early_failure_leaves_no_trace hwords
    (.memberUnread hsettings hdirectory hlisted hmember rfl hbad) false "noon"⟩

end Command

end QueryLint

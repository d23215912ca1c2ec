/-
  QueryLint.Proofs.DiskRelations

  Programs on a machine as relations between disks. `Meets` says of a program with which values
  and disks it succeeds from each disk, whatever it writes to the streams; there is one rule for
  each way to put programs together. By these rules loading settings is `Settings.StoredAt`,
  reading queries is `Source.ReadFrom` and making a directory ready for reports is
  `Report.MadeReady`: relations stated by the operations on disks alone.
-/
import QueryLint.Proofs.Batch
import QueryLint.Proofs.FileContents
import QueryLint.Proofs.ReportWriting
import QueryLint.Settings.File
import QueryLint.Source.Reader

namespace QueryLint

theorem mapError_eq_ok_iff {ε ε' α : Type} {f : ε → ε'} {x : Except ε α} {a : α} :
    x.mapError f = .ok a ↔ x = .ok a := by
  cases x <;> simp [Except.mapError]

/-! ## Programs that meet a relation -/

section Meets

variable {ε α β : Type} {clock : String}

/-- A program that, on a machine with this clock, succeeds exactly with the values and disks that
    the relation has for the disk it finds, and leaves the clock. -/
def Meets (clock : String) (x : ExceptT ε (StateM Machine) α) (spec : Disk → α → Disk → Prop) :
    Prop :=
  ∀ machine : Machine, machine.clock = clock →
    (x.run.run machine).2.clock = clock ∧
    ∀ a disk, (x.run.run machine).1 = .ok a ∧ (x.run.run machine).2.disk = disk ↔
      spec machine.disk a disk

/-- One program after the other meets one relation after the other. Of the second this is asked
    for the values the first can give. -/
theorem Meets.bind {x : ExceptT ε (StateM Machine) α} {f : α → ExceptT ε (StateM Machine) β}
    {P : Disk → α → Disk → Prop} {Q : α → Disk → β → Disk → Prop} (hx : Meets clock x P)
    (hf : ∀ a d e, P d a e → Meets clock (f a) (Q a)) :
    Meets clock (x >>= f) fun d b d' => ∃ a e, P d a e ∧ Q a e b d' := by
  intro machine hclock
  obtain ⟨hclock', hP⟩ := hx machine hclock
  rcases hrun : x.run.run machine with ⟨result, machine'⟩
  rw [hrun] at hclock' hP
  cases result with
  | error e =>
    rw [Report.run_run_bind_of_error hrun]
    refine ⟨hclock', fun b disk => iff_of_false (fun h => nomatch h.1) ?_⟩
    rintro ⟨a, d, hPa, -⟩
    exact nomatch ((hP a d).2 hPa).1
  | ok a =>
    -- The relation has no other value and disk for the first program, so the second goes on
    -- from these.
    rw [Report.run_run_bind_of_ok hrun]
    have hgiven := (hP a _).1 ⟨rfl, rfl⟩
    obtain ⟨hclock'', hQ⟩ := hf a _ _ hgiven machine' hclock'
    refine ⟨hclock'', fun b disk => ?_⟩
    rw [hQ]
    constructor
    · intro h
      exact ⟨a, machine'.disk, hgiven, h⟩
    · rintro ⟨a', d, hPa, hQa⟩
      obtain ⟨ha, rfl⟩ := (hP a' d).2 hPa
      cases ha
      exact hQa

theorem Meets.congr {x : ExceptT ε (StateM Machine) α} {P Q : Disk → α → Disk → Prop}
    (h : Meets clock x P) (hPQ : ∀ d a d', P d a d' ↔ Q d a d') : Meets clock x Q := by
  intro machine hclock
  obtain ⟨hclock', hP⟩ := h machine hclock
  exact ⟨hclock', fun a disk => (hP a disk).trans (hPQ _ _ _)⟩

/-- A program that can give only one value, and another after it. -/
theorem Meets.andThen {x : ExceptT ε (StateM Machine) α} {f : α → ExceptT ε (StateM Machine) β}
    {P : Disk → Disk → Prop} {Q : Disk → β → Disk → Prop} {a : α}
    (hx : Meets clock x fun d b d' => P d d' ∧ a = b) (hf : Meets clock (f a) Q) :
    Meets clock (x >>= f) fun d b d' => ∃ e, P d e ∧ Q e b d' := by
  refine (hx.bind fun b _ _ h => h.2 ▸ hf).congr fun d b d' => ?_
  constructor
  · rintro ⟨_, e, ⟨hP, -⟩, hQ⟩
    exact ⟨e, hP, hQ⟩
  · rintro ⟨e, hP, hQ⟩
    exact ⟨a, e, ⟨hP, rfl⟩, hQ⟩

/-- What leaves the disk may come first. -/
theorem Meets.after {x : ExceptT ε (StateM Machine) Unit} {y : ExceptT ε (StateM Machine) β}
    {Q : Disk → β → Disk → Prop} (hy : Meets clock y Q)
    (hx : Meets clock x fun d _ d' => d = d') : Meets clock (x >>= fun _ => y) Q := by
  refine (hx.bind fun _ _ _ _ => hy).congr fun d b d' => ?_
  constructor
  · rintro ⟨_, _, rfl, h⟩
    exact h
  · intro h
    exact ⟨(), d, rfl, h⟩

theorem meets_pure (a : α) :
    Meets clock (pure a : ExceptT ε (StateM Machine) α) fun d b d' => a = b ∧ d = d' := by
  intro machine hclock
  refine ⟨hclock, fun b disk => ?_⟩
  show Except.ok a = .ok b ∧ machine.disk = disk ↔ a = b ∧ machine.disk = disk
  rw [Except.ok.injEq]

theorem meets_throw (e : ε) :
    Meets clock (throw e : ExceptT ε (StateM Machine) α) fun _ _ _ => False :=
  fun _ hclock => ⟨hclock, fun _ _ => iff_of_false (fun h => nomatch h.1) id⟩

theorem Meets.ite {x y : ExceptT ε (StateM Machine) α} {P Q : Disk → α → Disk → Prop}
    (hx : Meets clock x P) (condition : Bool) (hy : Meets clock y Q) :
    Meets clock (if condition = true then x else y) fun d a d' =>
      if condition = true then P d a d' else Q d a d' := by
  cases condition with
  | true => exact hx
  | false => exact hy

/-- After a question to the disk, what meets a relation for each answer. -/
theorem Meets.ask_bind (question : Disk → α) {f : α → ExceptT ε (StateM Machine) β}
    {Q : α → Disk → β → Disk → Prop} (hf : ∀ a, Meets clock (f a) (Q a)) :
    Meets clock (monadLift (Machine.ask question) >>= f) fun d b d' => Q (question d) d b d' := by
  intro machine hclock
  have hasked : (monadLift (Machine.ask question) : ExceptT ε (StateM Machine) α).run.run machine =
      (.ok (question machine.disk), machine) := rfl
  rw [Report.run_run_bind_of_ok hasked]
  exact hf _ machine hclock

/-- An operation on the disk, as a program that fails where the operation does. -/
theorem meets_change (operation : Disk → Disk.Outcome) :
    Meets clock (ExceptT.mk (Machine.change operation)) fun d _ d' =>
      operation d = (.ok (), d') := by
  intro machine hclock
  refine ⟨hclock, fun a disk => ?_⟩
  show (operation machine.disk).1 = .ok () ∧ (operation machine.disk).2 = disk ↔
    operation machine.disk = (.ok (), disk)
  rw [Prod.ext_iff]

theorem meets_out (text : String) :
    Meets clock (monadLift (Machine.host.out text) : ExceptT ε (StateM Machine) Unit) fun d _ d' =>
      d = d' :=
  fun _ hclock => ⟨hclock, fun _ _ => and_iff_right rfl⟩

theorem meets_err (text : String) :
    Meets clock (monadLift (Machine.host.err text) : ExceptT ε (StateM Machine) Unit) fun d _ d' =>
      d = d' :=
  fun _ hclock => ⟨hclock, fun _ _ => and_iff_right rfl⟩

theorem meets_now :
    Meets clock (monadLift Machine.host.now : ExceptT ε (StateM Machine) String) fun d a d' =>
      d = d' ∧ clock = a := by
  rintro machine rfl
  refine ⟨rfl, fun a disk => ?_⟩
  show Except.ok machine.clock = .ok a ∧ machine.disk = disk ↔
    machine.disk = disk ∧ machine.clock = a
  rw [Except.ok.injEq, and_comm]

end Meets

/-! ## Loading settings -/

namespace Settings

/-- The path leads to a text that gives the settings. -/
def StoredAt (d : Disk) (path : String) (s : Settings) : Prop :=
  ∃ text, d.readText path = .ok text ∧ ofToml text = .ok s

theorem run_load_of_error {machine : Machine} {path : String} {cause : SystemError}
    (h : machine.disk.readText path = .error cause) :
    (load Machine.host path).run machine = (.error (.system cause), machine) := by
  have hasked : (Machine.host.readText path).run machine =
      (machine.disk.readText path, machine) := rfl
  rw [load, StateT.run_bind, hasked, h]
  rfl

theorem run_load_of_ok {machine : Machine} {path text : String}
    (h : machine.disk.readText path = .ok text) :
    (load Machine.host path).run machine = ((ofToml text).mapError .malformed, machine) := by
  have hasked : (Machine.host.readText path).run machine =
      (machine.disk.readText path, machine) := rfl
  rw [load, StateT.run_bind, hasked, h]
  rfl

theorem meets_load {clock : String} (path : String) :
    Meets clock (ExceptT.mk (load Machine.host path)) fun d s d' =>
      StoredAt d path s ∧ d = d' := by
  intro machine hclock
  show ((load Machine.host path).run machine).2.clock = clock ∧
    ∀ s disk, ((load Machine.host path).run machine).1 = .ok s ∧
      ((load Machine.host path).run machine).2.disk = disk ↔ _
  cases hread : machine.disk.readText path with
  | error cause =>
    rw [run_load_of_error hread]
    refine ⟨hclock, fun s disk => iff_of_false (fun h => nomatch h.1) ?_⟩
    rintro ⟨⟨text, htext, -⟩, -⟩
    rw [hread] at htext
    cases htext
  | ok text =>
    rw [run_load_of_ok hread]
    refine ⟨hclock, fun s disk => and_congr_left fun _ => ?_⟩
    refine mapError_eq_ok_iff.trans ⟨fun htoml => ⟨text, hread, htoml⟩, ?_⟩
    rintro ⟨text', htext, htoml⟩
    rw [hread] at htext
    cases htext
    exact htoml

end Settings

/-! ## Reading queries -/

namespace Source

variable {clock : String}

/-- The path leads to a text with the queries. -/
def HeldAt (d : Disk) (path : String) (mode : SplitMode) (qs : List Query) : Prop :=
  ∃ content, d.readText path = .ok content ∧ qs = queriesOf (label path) mode content

/-- The queries at a path: those of the file there, or of all files of the directory there that
    no pattern matches, in the order of their names. -/
def ReadFrom (d : Disk) (path : String) (options : Options) (qs : List Query) : Prop :=
  if d.isFile path = true then HeldAt d path options.split qs
  else d.isDirectory path = true ∧ ∃ names parts, d.regularFiles path = .ok names ∧
    List.Forall₂ (fun name part => HeldAt d (Path.join path name) options.split part)
      (names.filter (!isSkipped options.skip ·)) parts ∧
    qs = parts.flatten

theorem meets_readOne (path : String) (mode : SplitMode) :
    Meets clock (readOne Machine.host path mode) fun d qs d' => HeldAt d path mode qs ∧ d = d' := by
  rw [readOne]
  refine Meets.ask_bind (Q := fun read d qs d' => (∃ content, read = .ok content ∧
    qs = queriesOf (label path) mode content) ∧ d = d') (·.readText path) fun read => ?_
  cases read with
  | ok content => exact (meets_pure _).congr fun d qs d' => by simp [eq_comm]
  | error cause => exact (meets_throw _).congr fun d qs d' => by simp

theorem meets_readEach (dir : String) (mode : SplitMode) (names : List String) :
    Meets clock (readEach Machine.host dir mode names) fun d qs d' =>
      (∃ parts, List.Forall₂ (fun name part => HeldAt d (Path.join dir name) mode part)
        names parts ∧ qs = parts.flatten) ∧ d = d' := by
  induction names with
  | nil =>
    refine (meets_pure _).congr fun d qs d' => and_congr_left fun _ => ?_
    constructor
    · rintro rfl
      exact ⟨[], .nil, rfl⟩
    · rintro ⟨parts, hparts, rfl⟩
      cases hparts
      rfl
  | cons name names ih =>
    refine ((meets_readOne _ _).bind fun first _ _ _ => ih.bind fun rest _ _ _ =>
      meets_pure (first ++ rest)).congr fun d qs d' => ?_
    constructor
    · rintro ⟨first, _, ⟨hfirst, rfl⟩, rest, _, ⟨⟨parts, hparts, rfl⟩, rfl⟩, rfl, rfl⟩
      exact ⟨⟨first :: parts, .cons hfirst hparts, rfl⟩, rfl⟩
    · rintro ⟨⟨parts, hparts, rfl⟩, rfl⟩
      cases hparts with
      | @cons _ first _ parts hfirst hparts =>
        exact ⟨first, _, ⟨hfirst, rfl⟩, parts.flatten, _, ⟨⟨parts, hparts, rfl⟩, rfl⟩, rfl, rfl⟩

/-- Reading a directory that is listed. -/
theorem meets_readListed (path : String) (options : Options)
    (listed : Except SystemError (List String)) :
    Meets clock (match listed with
      | .ok names => readEach Machine.host path options.split
          (names.filter (!isSkipped options.skip ·))
      | .error cause => throw (.unlisted path cause)) fun d qs d' =>
      (∃ names parts, listed = .ok names ∧
        List.Forall₂ (fun name part => HeldAt d (Path.join path name) options.split part)
          (names.filter (!isSkipped options.skip ·)) parts ∧
        qs = parts.flatten) ∧ d = d' := by
  cases listed with
  | ok names => exact (meets_readEach _ _ _).congr fun d qs d' => by simp
  | error cause => exact (meets_throw _).congr fun d qs d' => by simp

theorem meets_read (path : String) (options : Options) :
    Meets clock (read Machine.host path options) fun d qs d' =>
      ReadFrom d path options qs ∧ d = d' := by
  have hlisted := Meets.ask_bind (·.regularFiles path) (@meets_readListed clock path options)
  have hdirectory := Meets.ask_bind (·.isDirectory path) fun directory =>
    hlisted.ite directory (meets_throw (.invalidPath path))
  have hread := Meets.ask_bind (·.isFile path) fun file =>
    (meets_readOne path options.split).ite file hdirectory
  rw [read]
  refine hread.congr fun d qs d' => ?_
  rw [ReadFrom]
  split
  · exact Iff.rfl
  · split
    · next hlisted => rw [and_iff_right hlisted]
    · next hneither => exact iff_of_false id fun h => hneither h.1.1

end Source

/-! ## Writing reports -/

namespace Report

variable {α β : Type} {clock : String}

/-- A writing from a given writer, as a program that also gives the writer it ends with. -/
def startedWith (w : Writer) (x : Writing (StateM Machine) α) :
    ExceptT WriteError (StateM Machine) (α × Writer) :=
  ExceptT.mk fun machine =>
    ((exec x w machine).1.1.map fun a => (a, (exec x w machine).1.2), (exec x w machine).2)

theorem startedWith_bind (w : Writer) (x : Writing (StateM Machine) α)
    (f : α → Writing (StateM Machine) β) :
    startedWith w (x >>= f) = startedWith w x >>= fun r => startedWith r.2 (f r.1) := by
  apply ExceptT.ext
  apply StateT.ext
  intro machine
  have hx : (startedWith w x).run.run machine =
      ((exec x w machine).1.1.map fun a => (a, (exec x w machine).1.2), (exec x w machine).2) := rfl
  have hbind : (startedWith w (x >>= f)).run.run machine =
      ((exec (x >>= f) w machine).1.1.map fun b => (b, (exec (x >>= f) w machine).1.2),
        (exec (x >>= f) w machine).2) := rfl
  rcases hexec : exec x w machine with ⟨⟨result, w'⟩, machine'⟩
  rw [hexec] at hx
  cases result with
  | ok a =>
    rw [run_run_bind_of_ok hx, hbind, exec_bind hexec]
    rfl
  | error e =>
    rw [run_run_bind_of_error hx, hbind, exec_bind_of_error hexec]
    rfl

theorem startedWith_pure (w : Writer) (a : α) :
    startedWith w (pure a : Writing (StateM Machine) α) = pure (a, w) := rfl

theorem startedWith_ask_bind (w : Writer) (question : Disk → α)
    (f : α → Writing (StateM Machine) β) :
    startedWith w (monadLift (Machine.ask question) >>= f) =
      monadLift (Machine.ask question) >>= fun a => startedWith w (f a) := rfl

/-- An operation is attempted as it is done, and the writer stays. -/
theorem meets_attempt (w : Writer) (path : String) (operation : Disk → Disk.Outcome) :
    Meets clock (startedWith w (attempt path (Machine.change operation))) fun d r d' =>
      operation d = (.ok (), d') ∧ ((), w) = r := by
  intro machine hclock
  rcases hdone : operation machine.disk with ⟨result, made⟩
  have hrun : (startedWith w (attempt path (Machine.change operation))).run.run machine =
      ((result.mapError (.unwritable path)).map fun a => (a, w),
        { machine with disk := made }) := by
    show ((exec _ w machine).1.1.map _, (exec _ w machine).2) = _
    rw [exec_attempt path operation hdone]
  rw [hrun]
  refine ⟨hclock, fun r disk => ?_⟩
  show _ ↔ operation machine.disk = (.ok (), disk) ∧ ((), w) = r
  rw [hdone, Prod.mk.injEq]
  cases result with
  | error e => simp [Except.mapError, Except.map]
  | ok u => simp [Except.mapError, Except.map, and_comm]

theorem outcome_eq_ok_iff {d d' : Disk} {result : Except SystemError Disk} :
    d.outcome result = (.ok (), d') ↔ result = .ok d' := by
  cases result <;> simp [Disk.outcome]

theorem foldlM_cons_eq_ok_iff {f : Disk → α → Except SystemError Disk} {a : α} {as : List α}
    {d d' : Disk} :
    (a :: as).foldlM f d = .ok d' ↔ ∃ e, f d a = .ok e ∧ as.foldlM f e = .ok d' := by
  rw [List.foldlM_cons]
  cases f d a <;> simp [bind, Except.bind]

theorem meets_removeFile (w : Writer) (path : String) :
    Meets clock (startedWith w (attempt path (Machine.host.removeFile path))) fun d r d' =>
      d.removeFile path = .ok d' ∧ ((), w) = r :=
  (meets_attempt w path fun d => d.outcome (d.removeFile path)).congr fun _ _ _ =>
    and_congr_left fun _ => outcome_eq_ok_iff

theorem meets_writeText (w : Writer) (path text : String) :
    Meets clock (startedWith w (attempt path (Machine.host.writeText path text))) fun d r d' =>
      d.writeBytes path text.toUTF8 = .ok d' ∧ ((), w) = r :=
  (meets_attempt w path fun d => d.outcome (d.writeBytes path text.toUTF8)).congr fun _ _ _ =>
    and_congr_left fun _ => outcome_eq_ok_iff

/-- The reports among the names removed, one after the other. -/
def sweep (dir : String) (names : List String) (d : Disk) : Except SystemError Disk :=
  (names.filter isFileName).foldlM (fun d name => d.removeFile (Path.join dir name)) d

theorem meets_removeReports (w : Writer) (dir : String) (names : List String) :
    Meets clock (startedWith w (removeReports Machine.host dir names)) fun d r d' =>
      sweep dir names d = .ok d' ∧ ((), w) = r := by
  induction names with
  | nil =>
    refine (meets_pure ((), w)).congr fun d r d' => ?_
    show _ ↔ Except.ok d = .ok d' ∧ _
    rw [Except.ok.injEq, and_comm]
  | cons name names ih =>
    -- A name that is no report's is left out of the sweep as it is passed over.
    simp only [removeReports, sweep] at ih ⊢
    by_cases hname : isFileName name = true
    · rw [if_pos hname, List.filter_cons_of_pos hname, startedWith_bind]
      refine ((meets_removeFile w _).andThen ih).congr fun d r d' => ?_
      rw [foldlM_cons_eq_ok_iff, ← exists_and_right]
      simp only [and_assoc]
    · rw [if_neg hname, List.filter_cons_of_neg hname]
      exact ih

/-- The directory is made and swept. -/
def MadeReady (dir : String) (d ready : Disk) : Prop :=
  ∃ made names, d.createDirectories dir = (.ok (), made) ∧ made.regularFiles dir = .ok names ∧
    sweep dir names made = .ok ready

theorem meets_prepare (w : Writer) (dir : String) :
    Meets clock (startedWith w (prepare Machine.host dir)) fun d r d' =>
      MadeReady dir d d' ∧ ((), w) = r := by
  have hlisted : ∀ listed : Except SystemError (List String),
      Meets clock (startedWith w (match listed with
        | .ok names => removeReports Machine.host dir names
        | .error cause => throw (.unlisted dir cause))) fun d r d' =>
        (∃ names, listed = .ok names ∧ sweep dir names d = .ok d') ∧ ((), w) = r := by
    intro listed
    cases listed with
    | ok names => exact (meets_removeReports w dir names).congr fun d r d' => by simp
    | error cause =>
      exact (meets_throw (WriteError.unlisted dir cause)).congr fun d r d' => by simp
  have hswept := Meets.ask_bind (·.regularFiles dir) hlisted
  rw [← startedWith_ask_bind] at hswept
  rw [prepare, startedWith_bind]
  refine ((meets_attempt w dir (·.createDirectories dir)).andThen hswept).congr fun d r d' => ?_
  constructor
  · rintro ⟨made, hmade, ⟨names, hnames, hsweep⟩, hr⟩
    exact ⟨⟨made, names, hmade, hnames, hsweep⟩, hr⟩
  · rintro ⟨⟨made, names, hmade, hnames, hsweep⟩, hr⟩
    exact ⟨made, hmade, ⟨names, hnames, hsweep⟩, hr⟩

/-- With the directory ready, a report is written and no more. -/
theorem meets_write_ready (dir : String) (r : Report) :
    Meets clock (startedWith ⟨dir, true⟩ (r.write Machine.host)) fun d r' d' =>
      d.writeBytes (Path.join dir (fileName r.id)) r.print.toUTF8 = .ok d' ∧
        ((), ⟨dir, true⟩) = r' :=
  meets_writeText ⟨dir, true⟩ (Path.join dir (fileName r.id)) r.print

/-- The first report is written once the directory has been made ready. -/
theorem meets_write_fresh (dir : String) (r : Report) :
    Meets clock (startedWith ⟨dir, false⟩ (r.write Machine.host)) fun d r' d' =>
      (∃ ready, MadeReady dir d ready ∧
        ready.writeBytes (Path.join dir (fileName r.id)) r.print.toUTF8 = .ok d') ∧
        ((), ⟨dir, true⟩) = r' := by
  have hwrite : startedWith ⟨dir, false⟩ (r.write Machine.host) =
      startedWith ⟨dir, false⟩ (prepare Machine.host dir) >>= fun _ =>
        startedWith ⟨dir, true⟩ (r.write Machine.host) := by
    -- What follows sets the writer, so it starts with one that is ready whatever came before.
    show startedWith ⟨dir, false⟩ (prepare Machine.host dir >>= fun _ => do
      set (Writer.mk dir true)
      attempt (Path.join dir (fileName r.id))
        (Machine.host.writeText (Path.join dir (fileName r.id)) r.print)) = _
    rw [startedWith_bind]
    rfl
  rw [hwrite]
  refine ((meets_prepare _ dir).andThen (meets_write_ready dir r)).congr fun d r' d' => ?_
  simp only [← and_assoc, exists_and_right]

/-- A writing of which the writer is left out in the end. -/
theorem meets_run' {w : Writer} {x : Writing (StateM Machine) α}
    {P : Disk → α × Writer → Disk → Prop} (h : Meets clock (startedWith w x) P) :
    Meets clock (ExceptT.mk (x.run.run' w)) fun d a d' => ∃ w', P d (a, w') d' := by
  intro machine hclock
  obtain ⟨hclock', hP⟩ := h machine hclock
  refine ⟨hclock', fun a disk => ?_⟩
  simp only [← hP]
  show (exec x w machine).1.1 = .ok a ∧ (exec x w machine).2.disk = disk ↔
    ∃ w', (exec x w machine).1.1.map (fun a => (a, (exec x w machine).1.2)) = .ok (a, w') ∧
      (exec x w machine).2.disk = disk
  rw [exists_and_right]
  refine and_congr_left fun _ => ?_
  cases (exec x w machine).1.1 <;> simp [Except.map]

end Report

end QueryLint

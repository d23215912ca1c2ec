/-
  QueryLint.Proofs.ReportWriting

  Writing reports on a machine. Making a directory ready sweeps away the reports of an earlier
  run (`exec_prepare`), and reports are then written one beside the other (`exec_writeAll`).
  Together: what a writer leaves that had not written yet (`exec_writeAll_fresh`).
-/
import QueryLint.Proofs.DiskPaths
import QueryLint.Report.Writer

namespace QueryLint

namespace Report

open QueryLint.Disk

/-! ## The names of reports -/

/-- The name of a report: digits between `query_` and `.json`. -/
def IsReportName (name : String) : Prop :=
  ∃ digits : List Char, digits ≠ [] ∧ (∀ c ∈ digits, c.isDigit = true) ∧
    name.toList = ['q', 'u', 'e', 'r', 'y', '_'] ++ digits ++ ['.', 'j', 's', 'o', 'n']

theorem isFileName_iff {name : String} : isFileName name = true ↔ IsReportName name := by
  have hdigits : ∀ ds : List Char, ((['q', 'u', 'e', 'r', 'y', '_'] ++ ds ++
      ['.', 'j', 's', 'o', 'n']).take ((['q', 'u', 'e', 'r', 'y', '_'] ++ ds ++
      ['.', 'j', 's', 'o', 'n']).length - 5)).drop 6 = ds := by
    intro ds
    have hlength : (['q', 'u', 'e', 'r', 'y', '_'] ++ ds).length =
        (['q', 'u', 'e', 'r', 'y', '_'] ++ ds ++ ['.', 'j', 's', 'o', 'n']).length - 5 := by
      simp only [List.length_append, List.length_cons, List.length_nil]
      omega
    rw [List.take_left' hlength]
    rfl
  constructor
  · intro h
    simp only [isFileName, Bool.and_eq_true, List.isPrefixOf_iff_prefix, Bool.not_eq_true',
      List.isSuffixOf_iff_suffix, List.isEmpty_eq_false_iff, List.all_eq_true] at h
    obtain ⟨⟨⟨⟨t, ht⟩, hback⟩, hne⟩, hall⟩ := h
    rw [← ht] at hback hne hall
    obtain ⟨ds, hds⟩ := hback
    change ds ++ ['.', 'j', 's', 'o', 'n'] = t at hds
    rw [← hds, ← List.append_assoc] at hne hall ht
    exact ⟨ds, hdigits ds ▸ hne, hdigits ds ▸ hall, ht.symm⟩
  · rintro ⟨ds, hne, hall, hname⟩
    simp only [isFileName, Bool.and_eq_true, List.isPrefixOf_iff_prefix, Bool.not_eq_true',
      List.isSuffixOf_iff_suffix, List.isEmpty_eq_false_iff, List.all_eq_true, hname]
    refine ⟨⟨⟨⟨_, (List.append_assoc _ _ _).symm⟩, ⟨ds, rfl⟩⟩, ?_⟩, ?_⟩
    · exact (hdigits ds).symm ▸ hne
    · exact (hdigits ds).symm ▸ hall

/-- Every character of a report's name is a letter, a digit, an underscore or a point. -/
theorem IsReportName.isName {name : String} (h : IsReportName name) : Path.IsName name := by
  obtain ⟨ds, -, hall, hname⟩ := h
  have hnot : ∀ c, c.isDigit = false →
      c ∉ ['q', 'u', 'e', 'r', 'y', '_'] ++ ['.', 'j', 's', 'o', 'n'] → c ∉ name.toList := by
    intro c hc hother hmem
    rw [hname, List.mem_append, List.mem_append] at hmem
    rw [List.mem_append] at hother
    rcases hmem with (hmem | hmem) | hmem
    · exact hother (.inl hmem)
    · rw [hall c hmem] at hc
      cases hc
    · exact hother (.inr hmem)
  have hne : ∀ other : String, other.toList.head? ≠ some 'q' → name ≠ other := by
    rintro other hother rfl
    rw [hname] at hother
    exact hother rfl
  exact ⟨hne "" (by decide), hnot '/' (by decide) (by decide), hnot '\x00' (by decide) (by decide),
    hne "." (by decide), hne ".." (by decide)⟩

theorem toList_fileName (id : Nat) :
    (fileName id).toList =
      ['q', 'u', 'e', 'r', 'y', '_'] ++ Nat.toDigits 10 id ++ ['.', 'j', 's', 'o', 'n'] := by
  show ("query_" ++ id.repr ++ ".json").toList = _
  rw [String.toList_append, String.toList_append, Nat.toList_repr]
  rfl

theorem isReportName_fileName (id : Nat) : IsReportName (fileName id) :=
  ⟨Nat.toDigits 10 id, Nat.toDigits_ne_nil,
    fun _ hc => Nat.isDigit_of_mem_toDigits (by omega) (by omega) hc, toList_fileName id⟩

theorem fileName_inj {i j : Nat} : fileName i = fileName j ↔ i = j := by
  refine ⟨fun h => ?_, fun h => h ▸ rfl⟩
  have hlist := congrArg String.toList h
  rw [toList_fileName, toList_fileName, List.append_left_inj, List.append_right_inj] at hlist
  calc
    i = Nat.ofDigitChars 10 (Nat.toDigits 10 i) 0 := Nat.ofDigitChars_ten_toDigits.symm
    _ = Nat.ofDigitChars 10 (Nat.toDigits 10 j) 0 := by rw [hlist]
    _ = j := Nat.ofDigitChars_ten_toDigits

/-! ## Writers on a machine -/

/-- What a writing gives and leaves, from a writer and a disk on a machine. -/
def exec {α : Type} (x : Writing (StateM Machine) α) (w : Writer) (machine : Machine) :
    (Except WriteError α × Writer) × Machine :=
  (x.run.run w).run machine

theorem exec_bind {α β : Type} {x : Writing (StateM Machine) α} {w w' : Writer}
    {machine machine' : Machine} {a : α} (h : exec x w machine = ((.ok a, w'), machine'))
    (f : α → Writing (StateM Machine) β) : exec (x >>= f) w machine = exec (f a) w' machine' := by
  rw [exec] at h
  rw [exec, ExceptT.run_bind, StateT.run_bind, StateT.run_bind, h]
  rfl

theorem exec_bind_of_error {α β : Type} {x : Writing (StateM Machine) α} {w w' : Writer}
    {machine machine' : Machine} {e : WriteError}
    (h : exec x w machine = ((.error e, w'), machine')) (f : α → Writing (StateM Machine) β) :
    exec (x >>= f) w machine = ((.error e, w'), machine') := by
  rw [exec] at h
  rw [exec, ExceptT.run_bind, StateT.run_bind, StateT.run_bind, h]
  rfl

/-- An operation on the disk is done; if it fails, the writing fails for its path. -/
theorem exec_attempt (path : String) (operation : Disk → Outcome) {w : Writer}
    {machine : Machine} {result : Except SystemError Unit} {d : Disk}
    (h : operation machine.disk = (result, d)) :
    exec (attempt path (Machine.change operation)) w machine =
      ((result.mapError (.unwritable path), w), { machine with disk := d }) := by
  have hchange : (Machine.change operation).run machine =
      (result, { machine with disk := d }) := by
    show ((operation machine.disk).1, { machine with disk := (operation machine.disk).2 }) = _
    rw [h]
  have hlift : exec (monadLift (Machine.change operation)) w machine =
      ((.ok result, w), { machine with disk := d }) := by
    show ((Except.ok ((Machine.change operation).run machine).1, w),
      ((Machine.change operation).run machine).2) = _
    rw [hchange]
  rw [attempt, exec_bind hlift]
  cases result with
  | ok _ => rfl
  | error e => rfl

theorem exec_removeFile {path : String} {w : Writer} {machine : Machine} {d : Disk}
    (h : machine.disk.removeFile path = .ok d) :
    exec (attempt path (Machine.host.removeFile path)) w machine =
      ((.ok (), w), { machine with disk := d }) := by
  have hremoved : machine.disk.outcome (machine.disk.removeFile path) = (.ok (), d) := by
    rw [h, outcome]
  exact exec_attempt path (fun d => d.outcome (d.removeFile path)) hremoved

theorem exec_createDirectories {path : String} {w : Writer} {machine : Machine} {d : Disk}
    (h : machine.disk.createDirectories path = (.ok (), d)) :
    exec (attempt path (Machine.host.createDirectories path)) w machine =
      ((.ok (), w), { machine with disk := d }) :=
  exec_attempt path (·.createDirectories path) h

theorem exec_get (w : Writer) (machine : Machine) :
    exec (get : Writing (StateM Machine) Writer) w machine = ((.ok w, w), machine) := rfl

/-- With the directory ready, a report is written and no more. -/
theorem exec_write_ready (r : Report) {dir : String} {machine : Machine}
    {result : Except SystemError Unit} {d : Disk}
    (h : machine.disk.outcome (machine.disk.writeBytes (Path.join dir (fileName r.id))
      r.print.toUTF8) = (result, d)) :
    exec (r.write Machine.host) ⟨dir, true⟩ machine =
      ((result.mapError (.unwritable (Path.join dir (fileName r.id))), ⟨dir, true⟩),
        { machine with disk := d }) := by
  rw [write, exec_bind (exec_get _ _)]
  exact exec_attempt (Path.join dir (fileName r.id))
    (fun d => d.outcome (d.writeBytes (Path.join dir (fileName r.id)) r.print.toUTF8)) h

/-- The first report is written once the directory has been made ready. -/
theorem exec_write_fresh {dir : String} {machine machine' : Machine} (r : Report)
    (h : exec (prepare Machine.host dir) ⟨dir, false⟩ machine =
      ((.ok (), ⟨dir, false⟩), machine')) :
    exec (r.write Machine.host) ⟨dir, false⟩ machine =
      exec (r.write Machine.host) ⟨dir, true⟩ machine' := by
  have hset : exec (set (Writer.mk dir true) : Writing (StateM Machine) PUnit) ⟨dir, false⟩
      machine' = ((.ok (), ⟨dir, true⟩), machine') := rfl
  rw [write, exec_bind (exec_get _ _), exec_bind (exec_get _ _)]
  simp only [Bool.not_false, if_true]
  rw [exec_bind h, exec_bind hset]
  rfl

theorem exec_write {dir : String} {place : Place} {machine : Machine} {r : Report}
    (hreaches : machine.disk.Reaches dir place) (hfits : Fits dir (fileName r.id))
    (hfree : machine.disk.get? (place.child (fileName r.id)) = none) :
    ∃ hplace, exec (r.write Machine.host) ⟨dir, true⟩ machine =
      ((.ok (), ⟨dir, true⟩), { machine with
        disk := machine.disk.put (place.child (fileName r.id)) (.file r.print.toUTF8) hplace
          (.file _) }) := by
  obtain ⟨hplace, hput⟩ := hreaches.writeBytes_join (isReportName_fileName r.id).isName hfits hfree
    r.print.toUTF8
  have hwritten : machine.disk.outcome (machine.disk.writeBytes (Path.join dir (fileName r.id))
      r.print.toUTF8) = (.ok (), machine.disk.put (place.child (fileName r.id))
        (.file r.print.toUTF8) hplace (.file _)) := by
    rw [hput, outcome]
  exact ⟨hplace, exec_write_ready r hwritten⟩

/-! ## Sweeping and writing -/

/-- Where the second disk differs, nothing or a file stood. -/
def KeepsTree (d d' : Disk) : Prop :=
  ∀ p, d'.get? p = d.get? p ∨ d.get? p = none ∨ ∃ content, d.get? p = some (.file content)

theorem KeepsTree.reaches {d d' : Disk} (h : KeepsTree d d') {path : String} {place : Place}
    (hreaches : d.Reaches path place) : d'.Reaches path place := by
  have hkept : ∀ p entry, d.get? p = some entry → (∀ content, entry ≠ .file content) →
      d'.get? p = some entry := by
    intro p entry hget hfile
    rcases h p with hsame | hnone | ⟨content, hcontent⟩
    · rw [hsame, hget]
    · rw [hget] at hnone
      cases hnone
    · rw [hget] at hcontent
      exact absurd (Option.some.inj hcontent) (hfile content)
  exact hreaches.mono (fun p hget => hkept p _ hget fun _ h => nomatch h)
    fun p _ hget => hkept p _ hget fun _ h => nomatch h

theorem keepsTree_erase {d : Disk} {place : Place} {name : String} {content : ByteArray}
    (h : d.get? (place.child name) = some (.file content)) :
    KeepsTree d (d.erase (place.child name)) := by
  intro p
  rw [get?_erase (place.child_names_ne_nil name)]
  by_cases hp : p = place.child name
  · exact .inr (.inr ⟨content, hp ▸ h⟩)
  · exact .inl (if_neg hp)

theorem keepsTree_put {d : Disk} {place : Place} (h : d.get? place = none) {entry : Entry}
    (hplace : place.IsProper) (hentry : entry.IsProper) :
    KeepsTree d (d.put place entry hplace hentry) := by
  intro p
  rw [get?_put]
  by_cases hp : p = place
  · exact .inr (.inl (hp ▸ h))
  · exact .inl (if_neg hp)

/-- Sweeping removes the reports among the names and nothing else. -/
theorem exec_removeReports {dir : String} {place : Place} {names : List String} {w : Writer}
    (machine : Machine) (hnodup : names.Nodup) (hreaches : machine.disk.Reaches dir place)
    (hfiles : ∀ name ∈ names, isFileName name = true → Fits dir name ∧
      ∃ content, machine.disk.get? (place.child name) = some (.file content)) :
    ∃ d, exec (removeReports Machine.host dir names) w machine =
        ((.ok (), w), { machine with disk := d }) ∧
      (∀ name ∈ names, isFileName name = true → d.get? (place.child name) = none) ∧
      ∀ p, (∀ name ∈ names, isFileName name = true → p ≠ place.child name) →
        d.get? p = machine.disk.get? p := by
  induction names generalizing machine with
  | nil => exact ⟨machine.disk, rfl, by simp, fun _ _ => rfl⟩
  | cons name names ih =>
    rw [List.nodup_cons] at hnodup
    rw [List.forall_mem_cons] at hfiles
    have hother : ∀ other ∈ names, place.child other ≠ place.child name := by
      intro other hmem heq
      exact hnodup.1 (Place.child_inj.1 heq ▸ hmem)
    by_cases hname : isFileName name = true
    · -- The report is erased, which leaves the way to the directory and the other files.
      obtain ⟨hfits, content, hcontent⟩ := hfiles.1 hname
      have hget := get?_erase (place.child_names_ne_nil name) machine.disk
      have hremove := hreaches.removeFile_join (isFileName_iff.1 hname).isName hfits hcontent
      have hfiles' : ∀ other ∈ names, isFileName other = true → Fits dir other ∧
          ∃ content, (machine.disk.erase (place.child name)).get? (place.child other) =
            some (.file content) := by
        intro other hmem hreport
        rw [hget, if_neg (hother other hmem)]
        exact hfiles.2 other hmem hreport
      obtain ⟨d, hexec, hnone, hsame⟩ :=
        ih { machine with disk := machine.disk.erase (place.child name) } hnodup.2
          ((keepsTree_erase hcontent).reaches hreaches) hfiles'
      refine ⟨d, ?_, ?_, ?_⟩
      · rw [removeReports, if_pos hname, exec_bind (exec_removeFile hremove)]
        exact hexec
      · rw [List.forall_mem_cons]
        refine ⟨fun _ => ?_, hnone⟩
        rw [hsame _ fun other hmem _ heq => hother other hmem heq.symm]
        exact (hget _).trans (if_pos rfl)
      · intro p hp
        rw [List.forall_mem_cons] at hp
        rw [hsame p hp.2]
        exact (hget p).trans (if_neg (hp.1 hname))
    · obtain ⟨d, hexec, hnone, hsame⟩ := ih machine hnodup.2 hreaches hfiles.2
      refine ⟨d, ?_, ?_, ?_⟩
      · rw [removeReports, if_neg hname]
        exact hexec
      · rw [List.forall_mem_cons]
        exact ⟨fun h => absurd h hname, hnone⟩
      · intro p hp
        exact hsame p (List.forall_mem_cons.1 hp).2

/-- Making a directory ready sweeps it once it is made. -/
theorem exec_prepare_eq {dir : String} {place : Place} {w : Writer} {machine : Machine}
    {made : Disk} (hmade : machine.disk.createDirectories dir = (.ok (), made))
    (hreaches : made.Reaches dir place) :
    exec (prepare Machine.host dir) w machine =
      exec (removeReports Machine.host dir (made.filesInside place)) w
        { machine with disk := made } := by
  have hfiles : made.regularFiles dir = .ok (made.filesInside place) := by
    rw [Reaches] at hreaches
    simp only [regularFiles, hreaches]
  have hlist : exec (monadLift (Machine.host.regularFiles dir)) w { machine with disk := made } =
      ((.ok (made.regularFiles dir), w), { machine with disk := made }) := rfl
  rw [hfiles] at hlist
  rw [prepare, exec_bind (exec_createDirectories hmade), exec_bind hlist]

/-- Making a directory ready sweeps away the reports that stand there and nothing else. -/
theorem exec_prepare {dir : String} {place : Place} {w : Writer} {machine : Machine} {made : Disk}
    (hmade : machine.disk.createDirectories dir = (.ok (), made))
    (hreaches : made.Reaches dir place)
    (hstale : ∀ name content, IsReportName name →
      made.get? (place.child name) = some (.file content) → Fits dir name) :
    ∃ d, exec (prepare Machine.host dir) w machine =
        ((.ok (), w), { machine with disk := d }) ∧
      d.Reaches dir place ∧
      (∀ name content, IsReportName name → made.get? (place.child name) = some (.file content) →
        d.get? (place.child name) = none) ∧
      ∀ p, (∀ name content, IsReportName name → p = place.child name →
        made.get? p ≠ some (.file content)) → d.get? p = made.get? p := by
  have hmem : ∀ name, name ∈ made.filesInside place ↔
      ∃ content, made.get? (place.child name) = some (.file content) :=
    fun name => mem_filesInside_iff
  obtain ⟨d, hexec, hnone, hsame⟩ := exec_removeReports (w := w) { machine with disk := made }
    (made.nodup_filesInside place) hreaches (by
      intro name hname hreport
      obtain ⟨content, hcontent⟩ := (hmem name).1 hname
      exact ⟨hstale name content (isFileName_iff.1 hreport) hcontent, content, hcontent⟩)
  have hkept : ∀ p, (∀ name content, IsReportName name → p = place.child name →
      made.get? p ≠ some (.file content)) → d.get? p = made.get? p := by
    intro p hp
    apply hsame
    rintro name hname hreport rfl
    obtain ⟨content, hcontent⟩ := (hmem name).1 hname
    exact hp name content (isFileName_iff.1 hreport) rfl hcontent
  refine ⟨d, ?_, ?_, ?_, hkept⟩
  · rw [exec_prepare_eq hmade hreaches]
    exact hexec
  · have hkeeps : KeepsTree made d := by
      intro p
      by_cases hp : ∃ content, made.get? p = some (.file content)
      · exact .inr (.inr hp)
      · exact .inl (hkept p fun _ content _ _ hcontent => hp ⟨content, hcontent⟩)
    exact hkeeps.reaches hreaches
  · intro name content hreport hcontent
    exact hnone name ((hmem name).2 ⟨content, hcontent⟩) (isFileName_iff.2 hreport)

/-- Reports with different positions are written one beside the other. -/
theorem exec_writeAll {dir : String} {place : Place} {rs : List Report} (machine : Machine)
    (hids : (rs.map Report.id).Nodup) (hreaches : machine.disk.Reaches dir place)
    (hfits : ∀ r ∈ rs, Fits dir (fileName r.id))
    (hfree : ∀ r ∈ rs, machine.disk.get? (place.child (fileName r.id)) = none) :
    ∃ d, exec (forM rs (write Machine.host)) ⟨dir, true⟩ machine =
        ((.ok (), ⟨dir, true⟩), { machine with disk := d }) ∧
      (∀ r ∈ rs, d.get? (place.child (fileName r.id)) = some (.file r.print.toUTF8)) ∧
      ∀ p, (∀ r ∈ rs, p ≠ place.child (fileName r.id)) → d.get? p = machine.disk.get? p := by
  induction rs generalizing machine with
  | nil => exact ⟨machine.disk, rfl, by simp, fun _ _ => rfl⟩
  | cons r rs ih =>
    rw [List.map_cons, List.nodup_cons] at hids
    rw [List.forall_mem_cons] at hfits hfree
    have hother : ∀ other ∈ rs,
        place.child (fileName other.id) ≠ place.child (fileName r.id) := by
      intro other hmem heq
      have hid := fileName_inj.1 (Place.child_inj.1 heq)
      exact hids.1 (hid ▸ List.mem_map_of_mem hmem)
    -- The other reports have other names, so their places are free as before.
    obtain ⟨hplace, hwritten⟩ := exec_write hreaches hfits.1 hfree.1
    have hget := machine.disk.get?_put hplace (.file r.print.toUTF8)
    obtain ⟨d, hexec, hfiles, hsame⟩ := ih
      { machine with
        disk := machine.disk.put (place.child (fileName r.id)) (.file r.print.toUTF8) hplace
          (.file _) }
      hids.2 ((keepsTree_put hfree.1 hplace (.file _)).reaches hreaches) hfits.2 (by
        intro other hmem
        exact (hget _).trans ((if_neg (hother other hmem)).trans (hfree.2 other hmem)))
    refine ⟨d, ?_, ?_, ?_⟩
    · rw [List.forM_cons, exec_bind hwritten]
      exact hexec
    · rw [List.forall_mem_cons]
      refine ⟨?_, hfiles⟩
      rw [hsame _ fun other hmem heq => hother other hmem heq.symm]
      exact (hget _).trans (if_pos rfl)
    · intro p hp
      rw [List.forall_mem_cons] at hp
      rw [hsame p hp.2]
      exact (hget p).trans (if_neg hp.1)

/-- What a fresh writer does with reports: the directory is made ready, and then they are
    written. -/
theorem exec_forM_fresh {dir : String} {machine machine' : Machine} {rs : List Report}
    (hrs : rs ≠ [])
    (h : exec (prepare Machine.host dir) ⟨dir, false⟩ machine =
      ((.ok (), ⟨dir, false⟩), machine')) :
    exec (forM rs (write Machine.host)) ⟨dir, false⟩ machine =
      exec (forM rs (write Machine.host)) ⟨dir, true⟩ machine' := by
  obtain ⟨r, rs, rfl⟩ := List.exists_cons_of_ne_nil hrs
  have hfirst := exec_write_fresh r h
  rw [List.forM_cons]
  simp only [exec, ExceptT.run_bind, StateT.run_bind] at hfirst ⊢
  rw [hfirst]

/-- Reports of a fresh writer. Afterwards the reports among the files of the directory are
    these, and every place that held no report and gets none is as it was. -/
theorem exec_writeAll_fresh {dir : String} {place : Place} {machine : Machine} {made : Disk}
    {rs : List Report} (hrs : rs ≠ []) (hids : (rs.map Report.id).Nodup)
    (hmade : machine.disk.createDirectories dir = (.ok (), made))
    (hreaches : made.Reaches dir place)
    (honly : ∀ r ∈ rs, ∀ entry, made.get? (place.child (fileName r.id)) = some entry →
      ∃ content, entry = .file content)
    (hfits : ∀ r ∈ rs, Fits dir (fileName r.id))
    (hstale : ∀ name content, IsReportName name →
      made.get? (place.child name) = some (.file content) → Fits dir name) :
    ∃ d, exec (forM rs (write Machine.host)) ⟨dir, false⟩ machine =
        ((.ok (), ⟨dir, true⟩), { machine with disk := d }) ∧
      (∀ name content, IsReportName name ∧ d.get? (place.child name) = some (.file content) ↔
        ∃ r ∈ rs, name = fileName r.id ∧ content = r.print.toUTF8) ∧
      ∀ p, (∀ r ∈ rs, p ≠ place.child (fileName r.id)) →
        (∀ name content, IsReportName name → p = place.child name →
          made.get? p ≠ some (.file content)) →
        d.get? p = made.get? p := by
  obtain ⟨swept, hprepare, hreaches', hgone, hkept⟩ :=
    exec_prepare (w := ⟨dir, false⟩) hmade hreaches hstale
  -- What stood in the place of a report was a file with a report's name, and is gone.
  have hfree : ∀ r ∈ rs, swept.get? (place.child (fileName r.id)) = none := by
    intro r hr
    cases hget : made.get? (place.child (fileName r.id)) with
    | none =>
      rw [hkept, hget]
      intro _ _ _ _ hfile
      rw [hget] at hfile
      cases hfile
    | some entry =>
      obtain ⟨content, rfl⟩ := honly r hr entry hget
      exact hgone _ content (isReportName_fileName r.id) hget
  obtain ⟨d, hexec, hwritten, hsame⟩ :=
    exec_writeAll { machine with disk := swept } hids hreaches' hfits hfree
  refine ⟨d, (exec_forM_fresh hrs hprepare).trans hexec, ?_, ?_⟩
  · intro name content
    constructor
    · rintro ⟨hreport, hfile⟩
      by_cases hnew : ∃ r ∈ rs, name = fileName r.id
      · obtain ⟨r, hr, rfl⟩ := hnew
        rw [hwritten r hr] at hfile
        have hcontent := Entry.file.inj (Option.some.inj hfile)
        exact ⟨r, hr, rfl, hcontent.symm⟩
      · -- A report that is none of these would have been swept away.
        have hother : ∀ r ∈ rs, place.child name ≠ place.child (fileName r.id) :=
          fun r hr heq => hnew ⟨r, hr, Place.child_inj.1 heq⟩
        rw [hsame _ hother] at hfile
        by_cases hold : ∃ content, made.get? (place.child name) = some (.file content)
        · obtain ⟨content', hcontent'⟩ := hold
          rw [hgone name content' hreport hcontent'] at hfile
          cases hfile
        · rw [hkept _ fun _ content _ _ hcontent => hold ⟨content, hcontent⟩] at hfile
          exact absurd ⟨content, hfile⟩ hold
    · rintro ⟨r, hr, hname, hcontent⟩
      rw [hname, hcontent]
      exact ⟨isReportName_fileName r.id, hwritten r hr⟩
  · intro p hnew hold
    rw [hsame p hnew]
    exact hkept p hold

end Report

end QueryLint

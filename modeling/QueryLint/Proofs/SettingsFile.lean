/-
  QueryLint.Proofs.SettingsFile

  A settings file gives back the settings that were saved to it, and a document that holds only
  some of them gives these and the defaults of the others (`save_round_trip`).

  Each setting stands under a key of its own, as a value or as a table with one entry (`Member`).
  The members of a document are put in one by one, the table last, because what follows its header
  would belong to it; a setting is then found by its key alone, wherever it was written.

  What a document leaves out is not taken from `default` but said for each setting by itself;
  that the two agree is `omitted_eq_default`.
-/
import QueryLint.Proofs.DiskRelations
import QueryLint.Proofs.TomlDocument

namespace QueryLint.Toml

/-! ## Members -/

/-- What a key stands for in a written document: a value, or a table with one entry or none. -/
inductive Member where
  | value (v : Value)
  | table (item? : Option (String × Value))

namespace Member

/-- The lines that say what a key stands for. -/
def lines (key : String) : Member → List Line
  | value v => [.entry [key] v]
  | table item? => .header [key] :: item?.toList.map fun e => .entry [e.1] e.2

/-- What a key stands for once its lines are read. -/
def node : Member → Node
  | value v => .leaf v
  | table item? => .table .header (item?.toList.map fun e => (e.1, .leaf e.2))

/-- What entries belong to after the lines of a member. -/
def opened (key : String) : Member → List String
  | value _ => []
  | table _ => [key]

end Member

theorem lookup_append_of_eq_none {α : Type} {es : List (String × α)} {key : String}
    (h : es.lookup key = none) (a : α) : (es ++ [(key, a)]).lookup key = some a := by
  rw [List.lookup_append, h, Option.none_or, List.lookup_cons_self]

theorem Entries.set_append {es : Entries} {key : String} (h : es.lookup key = none) (more : Entries)
    (node : Node) : Entries.set key node (es ++ more) = es ++ Entries.set key node more := by
  induction es with
  | nil => rfl
  | cons e es ih =>
    obtain ⟨k, n⟩ := e
    rw [List.lookup_cons] at h
    split at h
    · cases h
    · next hne =>
      have hk : (k == key) = false := by
        rw [Bool.beq_comm]
        exact hne
      rw [List.cons_append, Entries.set, hk, ih h]
      rfl

theorem add_entry {es : Entries} {key : String} (h : es.lookup key = none) (v : Value) :
    Draft.add ⟨es, []⟩ (.entry [key] v) = some ⟨es ++ [(key, .leaf v)], []⟩ := by
  simp [Draft.add, alter, addEntry, addKey, h]

theorem add_header {es : Entries} {key : String} (h : es.lookup key = none)
    (current : List String) :
    Draft.add ⟨es, current⟩ (.header [key]) = some ⟨es ++ [(key, .table .header [])], [key]⟩ := by
  have hset := Entries.set_append h [] (.table .header [])
  rw [List.append_nil] at hset
  simp [Draft.add, openAt, alter, openTable, h, hset, Entries.set]

theorem add_entry_below {es : Entries} {key : String} (h : es.lookup key = none) (k : String)
    (v : Value) :
    Draft.add ⟨es ++ [(key, .table .header [])], [key]⟩ (.entry [k] v) =
      some ⟨es ++ [(key, .table .header [(k, .leaf v)])], [key]⟩ := by
  have hset : Entries.set key (.table .header [(k, .leaf v)]) (es ++ [(key, .table .header [])]) =
      es ++ [(key, .table .header [(k, .leaf v)])] := by
    rw [Entries.set_append h]
    simp [Entries.set]
  simp [Draft.add, alter, lookup_append_of_eq_none h, addEntry, addKey, hset]

/-- The lines of a member add its key. -/
theorem Member.foldlM_lines {es : Entries} {key : String} (h : es.lookup key = none) (m : Member) :
    (m.lines key).foldlM Draft.add ⟨es, []⟩ = some ⟨es ++ [(key, m.node)], m.opened key⟩ := by
  cases m with
  | value v => simp [lines, add_entry h, node, opened]
  | table item? =>
    cases item? with
    | none => simp [lines, add_header h, node, opened]
    | some e => simp [lines, add_header h, add_entry_below h, node, opened]

/-- No key is given twice and only the last member may be a table. -/
def Ordered (members : List (String × Member)) : Prop :=
  members.Pairwise fun a b => a.1 ≠ b.1 ∧ a.2.opened a.1 = []

theorem foldlM_members (es : Entries) {members : List (String × Member)}
    (hordered : Ordered members) (hfresh : ∀ m ∈ members, es.lookup m.1 = none) :
    ∃ current, (members.flatMap fun m => m.2.lines m.1).foldlM Draft.add ⟨es, []⟩ =
      some ⟨es ++ members.map fun m => (m.1, m.2.node), current⟩ := by
  induction members generalizing es with
  | nil => exact ⟨[], by simp⟩
  | cons m members ih =>
    obtain ⟨hbefore, hrest⟩ := List.pairwise_cons.1 hordered
    have hm := m.2.foldlM_lines (hfresh m List.mem_cons_self)
    have hfresh' : ∀ n ∈ members, (es ++ [(m.1, m.2.node)]).lookup n.1 = none := by
      intro n hn
      rw [List.lookup_append, hfresh n (List.mem_cons_of_mem m hn), Option.none_or,
        List.lookup_cons, beq_false_of_ne (hbefore n hn).1.symm]
      rfl
    obtain ⟨current, hcurrent⟩ := ih _ hrest hfresh'
    rw [List.flatMap_cons, List.foldlM_append, hm]
    cases members with
    | nil => exact ⟨m.2.opened m.1, by simp⟩
    | cons n members =>
      -- Another member follows, so this one is a value and leaves no table open.
      rw [(hbefore n List.mem_cons_self).2]
      refine ⟨current, ?_⟩
      rw [Option.bind_eq_bind, Option.bind_some, hcurrent, List.append_assoc]
      rfl

theorem entryValues_eq_map (es : Entries) : entryValues es = es.map fun e => (e.1, e.2.value) := by
  induction es with
  | nil => rw [entryValues]; rfl
  | cons e es ih => rw [entryValues, ih]; rfl

/-- A document is the table of its members. -/
theorem ofLines?_members {members : List (String × Member)} (h : Ordered members) :
    ofLines? (members.flatMap fun m => m.2.lines m.1) =
      some (members.map fun m => (m.1, m.2.node.value)) := by
  obtain ⟨current, hcurrent⟩ := foldlM_members [] h fun _ _ => rfl
  rw [ofLines?, hcurrent]
  simp [entryValues_eq_map, Function.comp_def]

end QueryLint.Toml

namespace QueryLint.Settings

open QueryLint.Toml

/-! ## Settings and their members -/

/-- The key a setting stands under. -/
def Field.key : Field → String
  | .dialect => "dialect"
  | .split => "split"
  | .outputDir => "output_dir"
  | .extendedChecks => "extended_checks"
  | .failOnInvalid => "fail_on_invalid"
  | .summaryFile => "summary_file"
  | .skipFiles => "input"

theorem Field.key_inj {f g : Field} (h : f.key = g.key) : f = g := by
  cases f <;> cases g <;> first | rfl | exact absurd h (by decide)

/-- What a setting is written as; a missing summary file is not. -/
def member? (s : Settings) : Field → Option Member
  | .dialect => some (.value (.string s.dialect))
  | .split => some (.value (.string s.split.name))
  | .outputDir => some (.value (.string s.outputDir))
  | .extendedChecks => some (.value (.boolean s.extendedChecks))
  | .failOnInvalid => some (.value (.boolean s.failOnInvalid))
  | .summaryFile => s.summaryFile.map fun path => .value (.string path)
  | .skipFiles => some (.table (some ("skip_files", .array (s.skipFiles.map .string))))

/-- The members of a document of some of the settings. -/
def members (s : Settings) (fields : List Field) : List (String × Member) :=
  fields.filterMap fun f => (s.member? f).map fun m => (f.key, m)

theorem members_cons (s : Settings) (f : Field) (fields : List Field) :
    s.members (f :: fields) =
      ((s.member? f).map fun m => (f.key, m)).toList ++ s.members fields := by
  rw [members, List.filterMap_cons]
  cases s.member? f <;> rfl

theorem says_writeField (s : Settings) (f : Field) :
    Says (s.writeField f)
      ((((s.member? f).map fun m => (f.key, m)).toList).flatMap fun m => m.2.lines m.1) := by
  cases f with
  | dialect => exact says_writeEntry (by decide) (writtenValue_text _)
  | split => exact says_writeEntry (by decide) (writtenValue_text _)
  | outputDir => exact says_writeEntry (by decide) (writtenValue_text _)
  | extendedChecks => exact says_writeEntry (by decide) (writtenValue_boolean _)
  | failOnInvalid => exact says_writeEntry (by decide) (writtenValue_boolean _)
  | summaryFile =>
    cases hpath : s.summaryFile with
    | none => simpa [writeField, member?, hpath] using says_nil
    | some path =>
      have hsays : Says (writeEntry "summary_file" (writeQuoted path.toList))
          [.entry ["summary_file"] (.string path)] :=
        says_writeEntry (by decide) (writtenValue_text path)
      simpa [writeField, member?, hpath, Member.lines, Field.key] using hsays
  | skipFiles =>
    exact (says_writeHeader (by decide)).append (says_writeEntry (by decide) (writtenValue_texts _))

/-- A document of settings says what they are written as. -/
theorem says_writeField_flatMap (s : Settings) (fields : List Field) :
    Says (fields.flatMap s.writeField) ((s.members fields).flatMap fun m => m.2.lines m.1) := by
  induction fields with
  | nil => exact says_nil
  | cons f fields ih =>
    rw [members_cons, List.flatMap_cons, List.flatMap_append]
    exact (s.says_writeField f).append ih

/-- Only the skip patterns are written as a table. -/
theorem opened_of_member? {s : Settings} {f : Field} {m : Member} (hf : f ≠ .skipFiles)
    (h : s.member? f = some m) : m.opened f.key = [] := by
  cases f with
  | skipFiles => exact absurd rfl hf
  | summaryFile =>
    obtain ⟨path, _, rfl⟩ := Option.map_eq_some_iff.1 h
    rfl
  | dialect | split | outputDir | extendedChecks | failOnInvalid =>
    cases h
    rfl

/-- The settings stand in an order in which the skip patterns come last. -/
theorem ordered_members (s : Settings) {fields : List Field} (h : fields.Sublist Field.all) :
    Ordered (s.members fields) := by
  -- Distinct settings have distinct keys, and the only table is that of the last setting.
  have hfields : fields.Pairwise fun f g => f ≠ g ∧ f ≠ .skipFiles :=
    List.Pairwise.sublist h (by decide)
  refine List.pairwise_filterMap.2 (hfields.imp ?_)
  rintro f g ⟨hne, hlast⟩ m hm n hn
  obtain ⟨a, ha, rfl⟩ := Option.map_eq_some_iff.1 hm
  obtain ⟨b, _, rfl⟩ := Option.map_eq_some_iff.1 hn
  exact ⟨fun hkey => hne (Field.key_inj hkey), opened_of_member? hlast ha⟩

/-- What a document of some of the settings holds. -/
def table (s : Settings) (fields : List Field) : List (String × Value) :=
  (s.members fields).map fun m => (m.1, m.2.node.value)

theorem parse?_writeFields (s : Settings) {fields : List Field} (h : fields.Sublist Field.all) :
    Toml.parse? (s.writeFields fields) = some (s.table fields) :=
  (s.says_writeField_flatMap fields).parse?.trans (ofLines?_members (s.ordered_members h))

/-- The header of the table with the rules for input. -/
def inputHeader : String :=
  String.ofList (writeHeader "input")

/-- A document that ends with the header of the rules for input, and none of them. -/
theorem parse?_writeFields_inputHeader (s : Settings) {fields : List Field}
    (h : fields.Sublist Field.all) (hskip : .skipFiles ∉ fields) :
    Toml.parse? (s.writeFields fields ++ inputHeader) =
      some (s.table fields ++ [("input", .table [])]) := by
  have hsays : Says (fields.flatMap s.writeField ++ writeHeader "input")
      ((s.members fields ++ [("input", Member.table none)]).flatMap fun m => m.2.lines m.1) := by
    rw [List.flatMap_append]
    exact (s.says_writeField_flatMap fields).append (says_writeHeader (by decide))
  -- The header comes last and no other member is a table, so nothing is drawn into it.
  have hordered : Ordered (s.members fields ++ [("input", Member.table none)]) := by
    refine List.pairwise_append.2 ⟨s.ordered_members h, List.pairwise_singleton _ _, ?_⟩
    intro m hm n hn
    obtain rfl := List.mem_singleton.1 hn
    obtain ⟨f, hf, hmember⟩ := List.mem_filterMap.1 hm
    obtain ⟨a, ha, rfl⟩ := Option.map_eq_some_iff.1 hmember
    have hother : f ≠ .skipFiles := fun heq => hskip (heq ▸ hf)
    exact ⟨fun hkey => hother (Field.key_inj hkey), opened_of_member? hother ha⟩
  have hparsed := hsays.parse?.trans (ofLines?_members hordered)
  rwa [String.ofList_append, List.map_append] at hparsed

/-! ## Reading the settings -/

/-- A setting is found by its key if it was written. -/
theorem lookup_table (s : Settings) (fields : List Field) (f : Field) :
    (s.table fields).lookup f.key =
      if f ∈ fields then (s.member? f).map fun m => m.node.value else none := by
  induction fields with
  | nil => rfl
  | cons g fields ih =>
    have hcons : s.table (g :: fields) =
        ((s.member? g).map fun m => (g.key, m.node.value)).toList ++ s.table fields := by
      rw [table, members_cons, List.map_append]
      cases s.member? g <;> rfl
    rw [hcons, List.lookup_append, ih]
    by_cases hfg : f = g
    · subst hfg
      cases s.member? f <;> simp
    · have hkey : (f.key == g.key) = false := beq_false_of_ne fun h => hfg (Field.key_inj h)
      cases s.member? g <;> simp [hfg, List.lookup_cons, hkey]

/-- The settings that agree with these on the kept fields and are the defaults elsewhere. -/
def restrict (s : Settings) (keep : Field → Bool) : Settings where
  dialect := if keep .dialect then s.dialect else default.dialect
  split := if keep .split then s.split else default.split
  outputDir := if keep .outputDir then s.outputDir else default.outputDir
  extendedChecks := if keep .extendedChecks then s.extendedChecks else default.extendedChecks
  failOnInvalid := if keep .failOnInvalid then s.failOnInvalid else default.failOnInvalid
  summaryFile := if keep .summaryFile then s.summaryFile else default.summaryFile
  skipFiles := if keep .skipFiles then s.skipFiles else default.skipFiles

/-- Under the key of a setting stands what it is written as, if it is kept. -/
def Holds (entries : List (String × Value)) (s : Settings) (keep : Field → Bool) (f : Field) :
    Prop :=
  entries.lookup f.key = if keep f then (s.member? f).map fun m => m.node.value else none

theorem holds_table (s : Settings) (keep : Field → Bool) (f : Field) :
    Holds (s.table (Field.all.filter keep)) s keep f := by
  have hall : f ∈ Field.all := by cases f <;> decide
  rw [Holds, lookup_table]
  simp [hall]

/-- A setting that was written is read back, and one that was not has its default. -/
theorem setting_of_holds {α : Type} {entries : List (String × Value)} {s : Settings}
    {keep : Field → Bool} {f : Field} (h : Holds entries s keep f) {a default : α}
    {read : Value → Option α} (hread : ∀ m, s.member? f = some m → read m.node.value = some a)
    (hmissing : s.member? f = none → a = default) :
    setting entries f.key default read = .ok (if keep f then a else default) := by
  rw [setting, h]
  by_cases hkeep : keep f = true
  · rw [if_pos hkeep, if_pos hkeep]
    cases hm : s.member? f with
    | none => simp [hmissing hm]
    | some m => simp [hread m hm]
  · rw [if_neg hkeep, if_neg hkeep]

theorem texts?_array (texts : List String) : texts? (.array (texts.map .string)) = some texts := by
  rw [texts?]
  induction texts with
  | nil => rfl
  | cons text texts ih => simp [text?, ih]

/-- Settings that are held one by one are read together. -/
theorem ofEntries_of_holds {entries : List (String × Value)} {s : Settings} {keep : Field → Bool}
    (h : ∀ f, f ≠ .skipFiles → Holds entries s keep f)
    (hskip : setting entries "input" default.skipFiles inputSkipFiles? =
      .ok (s.restrict keep).skipFiles) :
    ofEntries entries = .ok (s.restrict keep) := by
  have hdialect : setting entries "dialect" default.dialect text? =
      .ok (s.restrict keep).dialect :=
    setting_of_holds (h .dialect (by decide)) (by rintro _ ⟨⟩; rfl) (by rintro ⟨⟩)
  have hsplit : setting entries "split" default.split splitMode? = .ok (s.restrict keep).split :=
    setting_of_holds (h .split (by decide))
      (by rintro _ ⟨⟩; exact SplitMode.ofName?_name s.split) (by rintro ⟨⟩)
  have houtputDir : setting entries "output_dir" default.outputDir text? =
      .ok (s.restrict keep).outputDir :=
    setting_of_holds (h .outputDir (by decide)) (by rintro _ ⟨⟩; rfl) (by rintro ⟨⟩)
  have hextended : setting entries "extended_checks" default.extendedChecks boolean? =
      .ok (s.restrict keep).extendedChecks :=
    setting_of_holds (h .extendedChecks (by decide)) (by rintro _ ⟨⟩; rfl) (by rintro ⟨⟩)
  have hfail : setting entries "fail_on_invalid" default.failOnInvalid boolean? =
      .ok (s.restrict keep).failOnInvalid :=
    setting_of_holds (h .failOnInvalid (by decide)) (by rintro _ ⟨⟩; rfl) (by rintro ⟨⟩)
  have hsummary : setting entries "summary_file" default.summaryFile
      (fun v => (text? v).map some) = .ok (s.restrict keep).summaryFile := by
    refine setting_of_holds (h .summaryFile (by decide)) ?_ Option.map_eq_none_iff.1
    intro m hm
    obtain ⟨path, hpath, rfl⟩ := Option.map_eq_some_iff.1 hm
    rw [hpath]
    rfl
  -- From here on the defaults of the document are those of the program.
  rw [ofEntries, omitted_eq_default, hdialect, hsplit, houtputDir, hextended, hfail, hsummary,
    hskip]
  rfl

/-- The document of the kept settings gives these and the defaults of the others. -/
theorem ofToml_writeFields (s : Settings) (keep : Field → Bool) :
    ofToml (s.writeFields (Field.all.filter keep)) = .ok (s.restrict keep) := by
  have hheld := s.holds_table keep
  rw [ofToml, s.parse?_writeFields List.filter_sublist]
  refine ofEntries_of_holds (fun f _ => hheld f) ?_
  exact setting_of_holds (hheld .skipFiles) (by rintro _ ⟨⟩; exact texts?_array s.skipFiles)
    (by rintro ⟨⟩)

/-- The header of the rules for input says nothing by itself. -/
theorem ofToml_writeFields_inputHeader (s : Settings) {keep : Field → Bool}
    (h : keep .skipFiles = false) :
    ofToml (s.writeFields (Field.all.filter keep) ++ inputHeader) = .ok (s.restrict keep) := by
  have hheld := s.holds_table keep
  have hskip : Field.skipFiles ∉ Field.all.filter keep := by simp [List.mem_filter, h]
  rw [ofToml, s.parse?_writeFields_inputHeader List.filter_sublist hskip]
  refine ofEntries_of_holds (fun f hf => ?_) ?_
  · have hkey : (f.key == "input") = false := beq_false_of_ne fun heq => hf (Field.key_inj heq)
    rw [Holds, List.lookup_append, hheld f, List.lookup_cons, hkey]
    exact Option.or_none
  -- The empty table is found, and says of the skip patterns what no table would say.
  · have hnone : (s.table (Field.all.filter keep)).lookup "input" = none := by
      rw [show "input" = Field.skipFiles.key from rfl, hheld .skipFiles, h]
      rfl
    rw [setting, lookup_append_of_eq_none hnone, restrict, h]
    rfl

/-! ## Saving and loading -/

theorem run_save_of_ok {s : Settings} {machine : Machine} {path : String} {d : Disk}
    (h : machine.disk.writeBytes path s.toToml.toUTF8 = .ok d) :
    (s.save Machine.host path).run machine = (.ok (), { machine with disk := d }) := by
  have hwritten : (Machine.host.writeText path s.toToml).run machine =
      (.ok (), { machine with disk := d }) := by
    show ((machine.disk.outcome (machine.disk.writeBytes path s.toToml.toUTF8)).1,
      { machine with disk := (machine.disk.outcome _).2 }) = _
    rw [h, Disk.outcome]
  rw [save, StateT.run_bind, hwritten]
  rfl

/-- Settings files give back what was saved. Where a file can be written, saving puts one there,
    touches nothing else, and loading the path afterwards gives the settings. The file holds the
    document of all settings; for every choice of settings to keep, the document of just these is
    accepted, with or without an empty table of rules for input, and gives them and the defaults
    of the others. -/
theorem save_round_trip (s : Settings) :
    (∀ (machine : Machine) (path : String) (place : Place), machine.disk.TakesFile path place →
      ∃ saved, (s.save Machine.host path).run machine = (.ok (), { machine with disk := saved }) ∧
        saved.readText path = .ok (s.writeFields Field.all) ∧
        (∀ p, p ≠ place → saved.get? p = machine.disk.get? p) ∧
        (load Machine.host path).run { machine with disk := saved } =
          (.ok s, { machine with disk := saved })) ∧
    (∀ keep : Field → Bool,
      ofToml (s.writeFields (Field.all.filter keep)) = .ok (s.restrict keep) ∧
      (keep .skipFiles = false →
        ofToml (s.writeFields (Field.all.filter keep) ++ inputHeader) = .ok (s.restrict keep))) ∧
    ofToml s.toToml = .ok s := by
  have hwhole : ofToml s.toToml = .ok s := s.ofToml_writeFields fun _ => true
  refine ⟨?_, fun keep => ⟨s.ofToml_writeFields keep, s.ofToml_writeFields_inputHeader⟩, hwhole⟩
  intro machine path place htakes
  obtain ⟨saved, hwritten, hreach, hother⟩ := htakes.writeBytes s.toToml.toUTF8
  have htext : saved.readText path = .ok s.toToml := Disk.readText_of_resolve hreach
  refine ⟨saved, run_save_of_ok hwritten, htext, hother, ?_⟩
  rw [@run_load_of_ok { machine with disk := saved } path _ htext, hwhole]
  rfl

/-- Settings with quotes, backslashes and a line break, saved over an older file, and the document
    of their dialect alone. -/
theorem save_round_trip_over_older :
    let s : Settings :=
      ⟨"my\"sql", .line, "out\\put\n", true, false, some "", ["*.bak", "'''\t\"\"\""]⟩
    let file := Place.here.child "lint.toml"
    let disk : Disk := { entries := [(file, .file "dialect = 1".toUTF8)] }
    disk.TakesFile "lint.toml" file ∧
    (∃ saved, (s.save Machine.host "lint.toml").run (.ofDisk disk "noon") =
        (.ok (), .ofDisk saved "noon") ∧
      ((load Machine.host "lint.toml").run (.ofDisk saved "noon")).1 = .ok s) ∧
    ofToml "dialect = 'my\"sql'\n\n[input]\n" = .ok { default with dialect := "my\"sql" } := by
  intro s file disk
  have htakes : disk.TakesFile "lint.toml" file := by
    have hname : Path.IsName "lint.toml" := by decide
    exact ⟨_, (Disk.resolve_of_isName hname (by decide) .write).2 _ rfl (by simp), .file⟩
  have htext : "dialect = 'my\"sql'\n\n[input]\n" =
      s.writeFields (Field.all.filter (· = .dialect)) ++ inputHeader := by decide +kernel
  obtain ⟨hsave, hcut, -⟩ := save_round_trip s
  obtain ⟨saved, hsaved, -, -, hload⟩ := hsave (.ofDisk disk "noon") "lint.toml" file htakes
  refine ⟨htakes, ⟨saved, hsaved, congrArg Prod.fst hload⟩, ?_⟩
  rw [htext, (hcut (· = .dialect)).2 rfl]
  rfl

end QueryLint.Settings

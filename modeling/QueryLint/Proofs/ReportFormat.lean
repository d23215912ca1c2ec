/-
  QueryLint.Proofs.ReportFormat

  The report format loses nothing: a report, a diagnostic, a summary, a query or settings are
  read back from their document as they were. A document is an object whose members are the
  fields of the record, each found again by its name (`fields?_ofMembers`), so what is left for
  each record is that its fields are read back.

  Counters and versions have a bound in the format and none in the records, hence `Fits`.
-/
import QueryLint.Proofs.JsonText
import QueryLint.Report.Json
import QueryLint.Settings.Json

namespace QueryLint

namespace Json

/-! ## Fields of a record -/

theorem namedMembers?_escape (members : List (String × Json)) :
    namedMembers? (members.map fun m => (escape m.1.toList, m.2)) = some members := by
  rw [namedMembers?, List.mapM_map]
  induction members with
  | nil => rfl
  | cons m members ih =>
    rw [List.mapM_cons, ih]
    simp

/-- The members of an object made from fields are found by the names of the fields. -/
theorem fields?_ofMembers (names : List String) (members : List (String × Json)) :
    (ofMembers members).fields? names = names.mapM (onlyMember? members) := by
  simp only [ofMembers, fields?, namedMembers?_escape, Option.bind_eq_bind, Option.bind_some]

/-- A list is read back, if each of its elements is. -/
theorem toList?_array_map {α : Type} {write : α → Json} {read : Json → Option α} {as : List α}
    (h : ∀ a ∈ as, read (write a) = some a) : (array (as.map write)).toList? read = some as := by
  rw [toList?, List.mapM_map]
  induction as with
  | nil => rfl
  | cons a as ih =>
    rw [List.forall_mem_cons] at h
    simp [List.mapM_cons, h.1, ih h.2]

/-! ## Written documents -/

theorem written_ofText (s : String) : Written (ofText s) :=
  .string s.toList

theorem written_ofNat (n : Nat) : Written (ofNat n) :=
  .number n

theorem written_ofMembers {members : List (String × Json)} (h : ∀ m ∈ members, Written m.2) :
    Written (ofMembers members) := by
  refine .object (fun m hm => ?_) fun m hm => ?_
  · obtain ⟨n, -, rfl⟩ := List.mem_map.1 hm
    exact ⟨n.1.toList, rfl⟩
  · obtain ⟨n, hn, rfl⟩ := List.mem_map.1 hm
    exact h n hn

theorem written_array_map {α : Type} {write : α → Json} {as : List α}
    (h : ∀ a ∈ as, Written (write a)) : Written (array (as.map write)) := by
  refine .array fun x hx => ?_
  obtain ⟨a, ha, rfl⟩ := List.mem_map.1 hx
  exact h a ha

/-- The value that the text of a document holds. -/
def decode? {α : Type} (read : Json → Option α) (text : String) : Option α :=
  (parse? text).bind read

/-- A value is read back from its text, if its document is a written one that is read back. -/
theorem decode?_print {α : Type} {read : Json → Option α} {j : Json} {a : α} (hwritten : Written j)
    (hread : read j = some a) : decode? read j.print = some a := by
  rw [decode?, parse?_print hwritten, Option.bind_some, hread]

end Json

open QueryLint.Json

/-! ## Diagnostics and queries -/

/-- The line of the diagnostic is one the format can hold. -/
def Diagnostic.Fits (d : Diagnostic) : Prop :=
  d.line < counterBound

theorem Diagnostic.written_toJson (d : Diagnostic) : Written d.toJson :=
  written_ofMembers (by simp [written_ofText, written_ofNat])

theorem Diagnostic.ofJson?_toJson {d : Diagnostic} (h : d.Fits) : ofJson? d.toJson = some d := by
  rw [Fits] at h
  simp [ofJson?, toJson, fields?_ofMembers, onlyMember?, h]

theorem Query.written_toJson (q : Query) : Written q.toJson :=
  written_ofMembers (by simp [written_ofText])

theorem Query.ofJson?_toJson (q : Query) : ofJson? q.toJson = some q := by
  simp [ofJson?, toJson, fields?_ofMembers, onlyMember?]

/-! ## Reports and summaries -/

/-- The number of the report and the lines of its diagnostics are ones the format can hold. -/
structure Report.Fits (r : Report) : Prop where
  id : r.id < counterBound
  diagnostics : ∀ d ∈ r.diagnostics, d.Fits

theorem Report.written_toJson (r : Report) : Written r.toJson := by
  have hdiagnostics : Written (.array (r.diagnostics.map Diagnostic.toJson)) :=
    written_array_map fun d _ => d.written_toJson
  exact written_ofMembers (by simp [written_ofText, written_ofNat, hdiagnostics])

/-- The status is read as it is written, whether or not it agrees with the diagnostics. -/
theorem Report.ofJson?_toJson {r : Report} (h : r.Fits) : ofJson? r.toJson = some r := by
  have hdiagnostics :
      (Json.array (r.diagnostics.map Diagnostic.toJson)).toList? Diagnostic.ofJson? =
        some r.diagnostics :=
    toList?_array_map fun d hd => Diagnostic.ofJson?_toJson (h.diagnostics d hd)
  simp [ofJson?, toJson, fields?_ofMembers, onlyMember?, h.id, hdiagnostics]

/-- The parts of the version are ones the format can hold. -/
structure FormatVersion.Fits (v : FormatVersion) : Prop where
  major : v.major < versionBound
  minor : v.minor < versionBound

theorem FormatVersion.written_toJson (v : FormatVersion) : Written v.toJson :=
  written_ofMembers (by simp [written_ofNat])

theorem FormatVersion.ofJson?_toJson {v : FormatVersion} (h : v.Fits) :
    ofJson? v.toJson = some v := by
  simp [ofJson?, toJson, fields?_ofMembers, onlyMember?, h.major, h.minor]

/-- The version and the counters of the summary are ones the format can hold. -/
structure Summary.Fits (s : Summary) : Prop where
  version : s.version.Fits
  processed : s.processed < counterBound
  passed : s.passed < counterBound
  failed : s.failed < counterBound

theorem Summary.written_toJson (s : Summary) : Written s.toJson :=
  written_ofMembers (by simp [written_ofText, written_ofNat, s.version.written_toJson])

theorem Summary.ofJson?_toJson {s : Summary} (h : s.Fits) : ofJson? s.toJson = some s := by
  simp [ofJson?, toJson, fields?_ofMembers, onlyMember?, FormatVersion.ofJson?_toJson h.version,
    h.processed, h.passed, h.failed]

/-! ## Settings -/

theorem Settings.written_toJson (s : Settings) : Written s.toJson := by
  have hskip : Written (.array (s.skipFiles.map .ofText)) :=
    written_array_map fun pattern _ => written_ofText pattern
  have hinput : Written (.ofMembers [("skip_files", .array (s.skipFiles.map .ofText))]) :=
    written_ofMembers (by simp [hskip])
  refine written_ofMembers ?_
  cases s.summaryFile <;> simp [written_ofText, Written.bool, hinput]

theorem Settings.inputRules?_skipFiles (patterns : List String) :
    inputRules? (.ofMembers [("skip_files", .array (patterns.map .ofText))]) = some patterns := by
  have hpatterns : (Json.array (patterns.map Json.ofText)).toList? Json.toText? = some patterns :=
    toList?_array_map fun pattern _ => toText?_ofText pattern
  simp [inputRules?, fields?_ofMembers, onlyMember?, orDefault, hpatterns]

/-- A missing summary file is not written, and what is not written is missing. -/
theorem Settings.ofJson?_toJson (s : Settings) : ofJson? s.toJson = some s := by
  obtain ⟨dialect, split, outputDir, extendedChecks, failOnInvalid, summaryFile, skipFiles⟩ := s
  cases summaryFile with
  | none =>
    simp [ofJson?, toJson, fields?_ofMembers, onlyMember?, orDefault, toBool?,
      inputRules?_skipFiles, omitted_eq_default, default]
  | some path =>
    have hpath : optionalPath? (.ofText path) = some (some path) := by
      rw [optionalPath?, toText?_ofText]
      · rfl
      · exact fun h => Json.noConfusion h
    simp [ofJson?, toJson, fields?_ofMembers, onlyMember?, orDefault, toBool?, hpath,
      inputRules?_skipFiles]

/-! ## The format -/

/-- Every diagnostic, query, report, summary and settings are what the text of their document
    holds, as far as the format can hold their numbers. -/
theorem documents_round_trip :
    (∀ d : Diagnostic, d.Fits → decode? Diagnostic.ofJson? d.toJson.print = some d) ∧
    (∀ q : Query, decode? Query.ofJson? q.toJson.print = some q) ∧
    (∀ r : Report, r.Fits → decode? Report.ofJson? r.print = some r) ∧
    (∀ s : Summary, s.Fits → decode? Summary.ofJson? s.print = some s) ∧
    ∀ s : Settings, decode? Settings.ofJson? s.toJson.print = some s := by
  refine ⟨fun d hd => ?_, fun q => ?_, fun r hr => ?_, fun s hs => ?_, fun s => ?_⟩
  · exact decode?_print d.written_toJson (Diagnostic.ofJson?_toJson hd)
  · exact decode?_print q.written_toJson q.ofJson?_toJson
  · exact decode?_print r.written_toJson (Report.ofJson?_toJson hr)
  · exact decode?_print s.written_toJson (Summary.ofJson?_toJson hs)
  · exact decode?_print s.written_toJson s.ofJson?_toJson

/-- The largest numbers, a status that disagrees with the diagnostics, and texts of quotes,
    backslashes, controls and characters beyond the first plane. -/
theorem documents_round_trip_extreme :
    let d : Diagnostic := ⟨counterBound - 1, "\"\\\x00\x1f", "\x7f\n😀", .fatal⟩
    let r : Report := ⟨counterBound - 1, "a\tb", "'\r\x08\x0c", .success, [d, d]⟩
    let s : Summary := ⟨⟨versionBound - 1, 0⟩, "", "ansi", counterBound - 1, 0, counterBound - 1⟩
    d.Fits ∧ decode? Diagnostic.ofJson? d.toJson.print = some d ∧
      r.Fits ∧ decode? Report.ofJson? r.print = some r ∧
      s.Fits ∧ decode? Summary.ofJson? s.print = some s := by
  intro d r s
  have hcounter : counterBound - 1 < counterBound := by decide
  have hd : d.Fits := hcounter
  have hr : r.Fits := ⟨hcounter, by simp [r, hd]⟩
  have hs : s.Fits := ⟨⟨by decide, by decide⟩, hcounter, by decide, hcounter⟩
  obtain ⟨hdiagnostic, -, hreport, hsummary, -⟩ := documents_round_trip
  exact ⟨hd, hdiagnostic d hd, hr, hreport r hr, hs, hsummary s hs⟩

end QueryLint

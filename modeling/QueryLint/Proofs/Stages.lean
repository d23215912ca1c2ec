/-
  QueryLint.Proofs.Stages

  What each stage of a check gives: whether it answers at all, and of which category its
  diagnostics are. The structural rules and, for a statement read off the same tokens,
  the extended checks always answer, so a check breaks down exactly if a hook of the
  dialect does: `Checker.stages_ok` and `Checker.stages_error`.
-/
import QueryLint.Checker
import QueryLint.Dialect.Registry
import QueryLint.Proofs.ParenSafety

namespace QueryLint

/-! ## Diagnostics of one category -/

/-- Diagnostics of one category, all about the query as a whole. -/
def AllOf (category : Category) (ds : List Diagnostic) : Prop :=
  ∀ d ∈ ds, d.category = category ∧ d.line = 1

theorem AllOf.nil (category : Category) : AllOf category [] := by
  intro d hd
  cases hd

theorem AllOf.append {category : Category} {as bs : List Diagnostic} (ha : AllOf category as)
    (hb : AllOf category bs) : AllOf category (as ++ bs) :=
  List.forall_mem_append.2 ⟨ha, hb⟩

/-- Violations of any kind that are worded on the first line. -/
theorem allOf_map {V : Type} (word : V → Diagnostic) {category : Category}
    (hword : ∀ v, (word v).category = category ∧ (word v).line = 1) (vs : List V) :
    AllOf category (vs.map word) := by
  intro d hd
  obtain ⟨v, -, rfl⟩ := List.mem_map.1 hd
  exact hword v

/-- A violation whose label no other has is reported exactly if it is found. -/
theorem exists_issue_iff {V : Type} {word : V → Diagnostic} {v : V}
    (hlabel : ∀ w, (word w).issue = (word v).issue → w = v) (vs : List V) :
    (∃ d ∈ vs.map word, d.issue = (word v).issue) ↔ v ∈ vs := by
  constructor
  · rintro ⟨d, hd, hissue⟩
    obtain ⟨w, hw, rfl⟩ := List.mem_map.1 hd
    rwa [← hlabel w hissue]
  · intro hv
    exact ⟨word v, List.mem_map_of_mem hv, rfl⟩

/-- The report of an empty query. -/
def emptyQuery : Diagnostic :=
  Grammar.Violation.emptyQuery.diagnostic

/-- Violations with other labels are no report of an empty query. -/
theorem emptyQuery_not_mem_map {V : Type} (word : V → Diagnostic)
    (hword : ∀ v, (word v).issue ≠ "Empty query") (vs : List V) : emptyQuery ∉ vs.map word := by
  intro h
  obtain ⟨v, -, hv⟩ := List.mem_map.1 h
  exact hword v (congrArg Diagnostic.issue hv)

/-! ## The clause grammar -/

namespace Grammar

theorem allOf_diagnostics (ts : List Token) : AllOf .grammar (Grammar.diagnostics ts) :=
  allOf_map Violation.diagnostic (fun _ => ⟨rfl, rfl⟩) _

@[simp] theorem mem_require {ok : Bool} {v w : Violation} :
    w ∈ require ok v ↔ ok = false ∧ w = v := by
  cases ok <;> simp [require]

theorem emptyQuery_not_mem_where (ts : List Token) : .emptyQuery ∉ whereViolations ts := by
  rw [whereViolations]
  split <;> simp

/-- No clause of a `SELECT` is reported as an empty query. -/
theorem emptyQuery_not_mem_select (ts : List Token) : .emptyQuery ∉ selectViolations ts := by
  have hfrom : .emptyQuery ∉ fromViolations ts := by
    rw [fromViolations]
    split <;> simp
  have hgroup : .emptyQuery ∉ groupViolations ts := by
    rw [groupViolations]
    split
    · simp
    · split <;> simp
  have hhaving : .emptyQuery ∉ havingViolations ts := by
    rw [havingViolations]
    split
    · simp
    · split
      · simp
      · split <;> simp
  have horder : .emptyQuery ∉ orderViolations ts := by
    rw [orderViolations]
    split <;> simp
  have hlimit : .emptyQuery ∉ limitViolations ts := by
    rw [limitViolations]
    split <;> simp
  simp only [selectViolations, List.mem_append, not_or]
  exact ⟨⟨⟨⟨⟨hfrom, emptyQuery_not_mem_where ts⟩, hgroup⟩, hhaving⟩, horder⟩, hlimit⟩

/-- No clause of a statement that changes rows is reported as an empty query. -/
theorem emptyQuery_not_mem_change (ts : List Token) :
    .emptyQuery ∉ insertViolations ts ∧ .emptyQuery ∉ updateViolations ts ∧
      .emptyQuery ∉ deleteViolations ts := by
  have hwhere := emptyQuery_not_mem_where ts
  refine ⟨?_, ?_, ?_⟩
  · rw [insertViolations, insertAsking]
    split <;> simp
  · rw [updateViolations]
    split
    · simp
    · split <;> simp [hwhere]
  · rw [deleteViolations]
    split <;> simp [hwhere]

/-- No clause of a statement that defines data is reported as an empty query. -/
theorem emptyQuery_not_mem_ddl (kind : Statement.Kind) (ts : List Token) :
    .emptyQuery ∉ ddlViolations kind ts := by
  have hdefinition : ∀ start, .emptyQuery ∉
      Id.run (definitionAsking (fun i => pure (Clause.closingParen? ts i)) ts start) := by
    intro start
    rw [definitionAsking]
    split
    · simp only [pure_bind]
      split <;> simp
    · simp
  rw [ddlViolations, ddlAsking]
  split
  · simp
  · split <;> simp [hdefinition]

/-- The clause grammar reports a query as empty only if it has no token. -/
theorem emptyQuery_not_mem_diagnostics (t : Token) (ts : List Token) :
    QueryLint.emptyQuery ∉ Grammar.diagnostics (t :: ts) := by
  have hviolations : .emptyQuery ∉ Grammar.violations (t :: ts) := by
    obtain ⟨hinsert, hupdate, hdelete⟩ := emptyQuery_not_mem_change (t :: ts)
    rw [Grammar.violations, Statement.classify?_cons]
    simp only
    split
    · exact emptyQuery_not_mem_select _
    · exact hinsert
    · exact hupdate
    · exact hdelete
    · exact emptyQuery_not_mem_ddl _ _
    · exact emptyQuery_not_mem_ddl _ _
    · exact emptyQuery_not_mem_ddl _ _
    · simp
  -- No other violation has the label of an empty query.
  have hlabel : ∀ v : Violation, v.issue = "Empty query" → v = .emptyQuery := by
    intro v hv
    cases v with
    | emptyQuery => rfl
    | _ => simp [Violation.issue] at hv
  intro h
  obtain ⟨v, hv, hreport⟩ := List.mem_map.1 h
  rw [hlabel v (congrArg Diagnostic.issue hreport)] at hv
  exact hviolations hv

end Grammar

/-! ## Set operations -/

theorem SetOperation.allOf_diagnostics (statement : Statement) (ts : List Token) :
    AllOf .grammar (SetOperation.diagnostics statement ts) :=
  allOf_map Violation.diagnostic (fun _ => ⟨rfl, rfl⟩) _

theorem SetOperation.emptyQuery_not_mem (statement : Statement) (ts : List Token) :
    emptyQuery ∉ SetOperation.diagnostics statement ts := by
  have hlabel : ∀ v : Violation, v.issue ≠ "Empty query" := by
    intro v
    cases v with
    | repeated op times =>
      rw [Violation.issue]
      cases op <;> decide
    | operandNotSelect op => cases op <;> decide
  exact emptyQuery_not_mem_map Violation.diagnostic hlabel _

/-! ## The structural rules -/

/-- The structural rules always give an answer. -/
theorem Structure.diagnostics_ok (sql : String) (limit : Nat) :
    ∃ vs, Structure.violations sql.toList limit = .ok vs ∧
      Structure.diagnostics sql limit = .ok (vs.map Violation.diagnostic) := by
  obtain ⟨depth, hdepth⟩ := Paren.selectDepth_ok sql.toList
  have hviolations : ∃ vs, Structure.violations sql.toList limit = .ok vs := by
    rw [Structure.violations, hdepth]
    exact ⟨_, rfl⟩
  obtain ⟨vs, hvs⟩ := hviolations
  refine ⟨vs, hvs, ?_⟩
  rw [Structure.diagnostics, hvs]
  rfl

/-- The labels of the structural rules, in the order they are applied. -/
def Structure.labels : List String :=
  ["Unmatched parentheses", "Unclosed string literal", "Subquery nested too deep"]

/-- Each structural rule is reported at most once, and in order. -/
theorem Structure.labels_sublist {cs : List Char} {limit : Nat} {vs : List Violation}
    (h : Structure.violations cs limit = .ok vs) :
    (vs.map Violation.issue).Sublist Structure.labels := by
  obtain ⟨depth, hdepth⟩ := Paren.selectDepth_ok cs
  rw [Structure.violations, hdepth] at h
  cases h
  rw [List.map_append, List.map_append]
  show List.Sublist _ ((["Unmatched parentheses"] ++ ["Unclosed string literal"]) ++
    ["Subquery nested too deep"])
  refine List.Sublist.append (List.Sublist.append ?_ ?_) ?_
  · split <;> simp [Violation.issue]
  · split <;> simp [Violation.issue]
  · split <;> simp [Violation.issue]

/-! ## The extended checks -/

/-- One group more adds the subquery it makes, if it makes one. -/
theorem Subquery.ofGroups_cons {cs body : List Char} {g : Paren.Group} {gs : List Paren.Group}
    {ss : List Subquery} (hbody : g.body cs = .ok body) (hss : ofGroups cs gs = .ok ss) :
    ofGroups cs (g :: gs) = .ok (if Text.beginsWithSelect (Text.trim body) = true
      then ⟨g.start, g.stop, Text.trim body⟩ :: ss else ss) := by
  by_cases hselect : Text.beginsWithSelect (Text.trim body) = true <;>
    simp [ofGroups, ofGroup?, hbody, hss, hselect, bind, Except.bind, pure, Except.pure]

theorem Subquery.ofGroups_ok {cs : List Char} {gs : List Paren.Group}
    (hgs : ∀ g ∈ gs, g ∈ Paren.groups cs) : ∃ subqueries, ofGroups cs gs = .ok subqueries := by
  induction gs with
  | nil => exact ⟨[], rfl⟩
  | cons g gs ih =>
    obtain ⟨body, hbody⟩ := Paren.Group.body_ok (hgs g List.mem_cons_self)
    obtain ⟨subqueries, hrest⟩ := ih fun m hm => hgs m (List.mem_cons_of_mem _ hm)
    exact ⟨_, ofGroups_cons hbody hrest⟩

/-- The checks of subqueries always give an answer. -/
theorem Subquery.diagnostics_ok (sql : String) :
    ∃ ds, Subquery.diagnostics sql = .ok ds ∧ AllOf .grammar ds ∧ emptyQuery ∉ ds := by
  have hgroups : ∀ g ∈ Paren.groups sql.toList, g ∈ Paren.groups sql.toList := fun _ hg => hg
  obtain ⟨subqueries, hall⟩ := Subquery.ofGroups_ok hgroups
  have hlabel : ∀ v : Violation, v.issue ≠ "Empty query" := by
    intro v
    cases v <;> decide
  rw [Subquery.diagnostics, Subquery.all, hall]
  exact ⟨_, rfl, allOf_map Violation.diagnostic (fun _ => ⟨rfl, rfl⟩) _,
    emptyQuery_not_mem_map Violation.diagnostic hlabel _⟩

/-- Where the first token is `WITH`, the first `AS` is a later one. -/
theorem Cte.pos_of_find?_as {statement : Statement} {ts : List Token} {i : Nat}
    (hstatement : Statement.classify? ts = some statement) (hwith : statement.keyword = "WITH")
    (hfind : Clause.find? ts "AS" = some i) : 0 < i := by
  cases ts with
  | nil => cases hstatement
  | cons t ts =>
    rw [Statement.classify?_cons] at hstatement
    cases hstatement
    have ht : t.text = "WITH" := hwith
    -- The first token is `WITH`, so the search goes on past it.
    have hne : t.is "AS" = false := by
      rw [Bool.eq_false_iff, ne_eq, Token.is_iff, ht]
      decide
    rw [Clause.find?, List.findIdx?_cons, hne] at hfind
    obtain ⟨k, -, rfl⟩ := Option.map_eq_some_iff.1 hfind
    exact Nat.succ_pos k

/-- The check of a leading `WITH` gives an answer for the statement of the same tokens. -/
theorem Cte.diagnostics_ok {statement : Statement} {ts : List Token}
    (hstatement : Statement.classify? ts = some statement) :
    ∃ ds, Cte.diagnostics statement ts = .ok ds ∧ AllOf .grammar ds ∧ emptyQuery ∉ ds := by
  have hviolations : ∃ vs, Cte.violations statement ts = .ok vs := by
    rw [Cte.violations]
    split
    · exact ⟨_, rfl⟩
    · rename_i hwith
      cases hfind : Clause.find? ts "AS" with
      | none => exact ⟨_, rfl⟩
      | some i =>
        have hpos := Cte.pos_of_find?_as hstatement (Decidable.not_not.1 hwith) hfind
        have hname : nameTokens ts i = .ok ((ts.take i).drop 1) := by
          rw [nameTokens, if_neg (by omega)]
        simp only [hname]
        exact ⟨_, rfl⟩
  obtain ⟨vs, hvs⟩ := hviolations
  have hlabel : ∀ v : Violation, v.issue ≠ "Empty query" := by
    intro v
    cases v <;> decide
  rw [Cte.diagnostics, hvs]
  exact ⟨_, rfl, allOf_map Violation.diagnostic (fun _ => ⟨rfl, rfl⟩) _,
    emptyQuery_not_mem_map Violation.diagnostic hlabel _⟩

/-- The extended checks give an answer for the statement of the same tokens. -/
theorem Extended.diagnostics_ok (sql : String) {statement : Statement} {ts : List Token}
    (hstatement : Statement.classify? ts = some statement) :
    ∃ ds, Extended.diagnostics sql statement ts = .ok ds ∧ AllOf .grammar ds ∧
      emptyQuery ∉ ds := by
  obtain ⟨ofSubqueries, hsub, hsubAll, hsubEmpty⟩ := Subquery.diagnostics_ok sql
  obtain ⟨ofCte, hcte, hcteAll, hcteEmpty⟩ := Cte.diagnostics_ok hstatement
  have hset := SetOperation.allOf_diagnostics statement ts
  rw [Extended.diagnostics, hsub, hcte]
  refine ⟨_, rfl, (hsubAll.append hcteAll).append hset, ?_⟩
  simp only [List.mem_append, not_or]
  exact ⟨⟨hsubEmpty, hcteEmpty⟩, SetOperation.emptyQuery_not_mem statement ts⟩

/-! ## The hooks of a dialect -/

namespace Dialect

/-- The hook of a dialect at a point. -/
def hook (d : Dialect) : HookPoint → Hook
  | .statement => d.statementHook
  | .clauses => d.clausesHook
  | .ddl => d.ddlHook

/-- The dialects queries are checked against: a built-in one, or one without checks of its
    own in which one hook may break down. -/
def Offered (d : Dialect) : Prop :=
  d ∈ builtin ∨ ∃ name maxDepth fault, d = plain name maxDepth fault

/-- The hooks of a built-in dialect answer, with diagnostics of the dialect. -/
theorem hook_of_builtin {d : Dialect} (hd : d ∈ builtin) (point : HookPoint)
    (statement : Statement) (ts : List Token) :
    ∃ ds, d.hook point statement ts = .ok ds ∧ AllOf .dialect ds := by
  simp only [builtin, List.mem_cons, List.not_mem_nil, or_false] at hd
  rcases hd with rfl | rfl
  · cases point with
    | statement => exact ⟨_, rfl, allOf_map Violation.diagnostic (fun _ => ⟨rfl, rfl⟩) _⟩
    | clauses => exact ⟨_, rfl, allOf_map Violation.diagnostic (fun _ => ⟨rfl, rfl⟩) _⟩
    | ddl => exact ⟨_, rfl, AllOf.nil _⟩
  · cases point with
    | statement => exact ⟨_, rfl, AllOf.nil _⟩
    | clauses => exact ⟨_, rfl, allOf_map Violation.diagnostic (fun _ => ⟨rfl, rfl⟩) _⟩
    | ddl => exact ⟨_, rfl, AllOf.nil _⟩

/-- A hook of a plain dialect finds nothing, or breaks down if it is the faulty one. -/
theorem hook_plain (name : String) (maxDepth : Nat) (fault : Option (HookPoint × Crash))
    (point : HookPoint) (statement : Statement) (ts : List Token) :
    (plain name maxDepth fault).hook point statement ts =
      match fault with
      | some (faulty, crash) => if faulty = point then .error crash else .ok []
      | none => .ok [] := by
  cases point <;> rfl

/-- A hook of an offered dialect that answers gives diagnostics of the dialect. -/
theorem Offered.hook_allOf {d : Dialect} (hd : d.Offered) {point : HookPoint}
    {statement : Statement} {ts : List Token} {ds : List Diagnostic}
    (h : d.hook point statement ts = .ok ds) : AllOf .dialect ds := by
  rcases hd with hd | ⟨name, maxDepth, fault, rfl⟩
  · obtain ⟨ds', hds', hall⟩ := hook_of_builtin hd point statement ts
    rw [hds'] at h
    cases h
    exact hall
  · rw [hook_plain] at h
    split at h
    · split at h
      · cases h
      · cases h
        exact AllOf.nil _
    · cases h
      exact AllOf.nil _

/-- Two hooks of an offered dialect that break down do so in the same way. -/
theorem Offered.crash_unique {d : Dialect} (hd : d.Offered) {p q : HookPoint}
    {statement : Statement} {ts : List Token} {a b : Crash}
    (hp : d.hook p statement ts = .error a) (hq : d.hook q statement ts = .error b) : a = b := by
  rcases hd with hd | ⟨name, maxDepth, fault, rfl⟩
  · obtain ⟨ds, hds, -⟩ := hook_of_builtin hd p statement ts
    rw [hds] at hp
    cases hp
  · rw [hook_plain] at hp hq
    cases fault with
    | none => cases hp
    | some f =>
      obtain ⟨faulty, crash⟩ := f
      simp only at hp hq
      split at hp
      · cases hp
        split at hq
        · cases hq
          rfl
        · cases hq
      · cases hp

/-- The hooks together: all answer, or one breaks down and that is what is left. -/
theorem diagnostics_cases (d : Dialect) (statement : Statement) (ts : List Token) :
    (∃ as bs cs, d.hook .statement statement ts = .ok as ∧ d.hook .clauses statement ts = .ok bs ∧
      d.hook .ddl statement ts = .ok cs ∧ d.diagnostics statement ts = .ok (as ++ bs ++ cs)) ∨
    (∃ point cause, d.hook point statement ts = .error cause ∧
      d.diagnostics statement ts = .error cause) := by
  simp only [diagnostics]
  -- The hooks run in this order and the first crash is the one that counts.
  cases hs : d.statementHook statement ts with
  | error cause => exact .inr ⟨.statement, cause, hs, rfl⟩
  | ok as =>
    cases hc : d.clausesHook statement ts with
    | error cause => exact .inr ⟨.clauses, cause, hc, rfl⟩
    | ok bs =>
      cases hd : d.ddlHook statement ts with
      | error cause => exact .inr ⟨.ddl, cause, hd, rfl⟩
      | ok cs => exact .inl ⟨as, bs, cs, hs, hc, hd, rfl⟩

end Dialect

/-! ## All stages -/

namespace Checker

/-- The parts of a report to which every stage contributed: the structural rules `S`, the
    clause grammar `G`, the hooks of the dialect `D` and the extended checks `E`. -/
structure Parts (c : Checker) (sql : String) (statement : Statement) (ts : List Token)
    (S G D E : List Diagnostic) : Prop where
  structural : Structure.diagnostics sql c.dialect.maxDepth = .ok S
  structural_allOf : AllOf .structural S
  structural_labels : (S.map Diagnostic.issue).Sublist Structure.labels
  grammar : G = Grammar.diagnostics ts
  grammar_allOf : AllOf .grammar G
  hooks : ∃ as bs cs, c.dialect.hook .statement statement ts = .ok as ∧
    c.dialect.hook .clauses statement ts = .ok bs ∧ c.dialect.hook .ddl statement ts = .ok cs ∧
    D = as ++ bs ++ cs
  dialect_allOf : AllOf .dialect D
  extended_on : c.extended = true → Extended.diagnostics sql statement ts = .ok E
  extended_off : c.extended = false → E = []
  extended_allOf : AllOf .grammar E

/-- A report to which every stage contributed is told from that of an early end by the
    categories of its diagnostics. -/
theorem Parts.category_ne {c : Checker} {sql : String} {statement : Statement} {ts : List Token}
    {S G D E : List Diagnostic} (h : c.Parts sql statement ts S G D E) :
    ∀ x ∈ S ++ G ++ D ++ E, x.category ≠ .lexical ∧ x.category ≠ .fatal := by
  intro x hx
  simp only [List.mem_append] at hx
  rcases hx with ((hx | hx) | hx) | hx
  · rw [(h.structural_allOf x hx).1]
    decide
  · rw [(h.grammar_allOf x hx).1]
    decide
  · rw [(h.dialect_allOf x hx).1]
    decide
  · rw [(h.extended_allOf x hx).1]
    decide

/-- The report of an empty query is no part of a report to which every stage contributed. -/
theorem Parts.emptyQuery_not_mem {c : Checker} {sql : String} {statement : Statement} {t : Token}
    {ts : List Token} {S G D E : List Diagnostic} (h : c.Parts sql statement (t :: ts) S G D E)
    (hstatement : Statement.classify? (t :: ts) = some statement) :
    emptyQuery ∉ S ++ G ++ D ++ E := by
  intro hmem
  simp only [List.mem_append] at hmem
  rcases hmem with ((hmem | hmem) | hmem) | hmem
  -- The structural and dialect parts differ from it in category, the others in label.
  · exact absurd (h.structural_allOf _ hmem).1 (by decide)
  · rw [h.grammar] at hmem
    exact Grammar.emptyQuery_not_mem_diagnostics t ts hmem
  · exact absurd (h.dialect_allOf _ hmem).1 (by decide)
  · cases hx : c.extended with
    | false =>
      rw [h.extended_off hx] at hmem
      cases hmem
    | true =>
      obtain ⟨ds, hds, -, hempty⟩ := Extended.diagnostics_ok sql hstatement
      rw [h.extended_on hx] at hds
      cases hds
      exact hempty hmem

/-- The stages of a check in terms of what the hooks of the dialect give: all else answers. -/
theorem stages_eq (c : Checker) (sql : String) {statement : Statement} {ts : List Token}
    {ofStructure ofExtended : List Diagnostic}
    (hstructure : Structure.diagnostics sql c.dialect.maxDepth = .ok ofStructure)
    (hextended : Extended.diagnostics sql statement ts = .ok ofExtended) :
    c.stages sql statement ts =
      (c.dialect.diagnostics statement ts).map fun ofDialect =>
        ofStructure ++ Grammar.diagnostics ts ++ ofDialect ++
          if c.extended then ofExtended else [] := by
  rw [stages, hstructure]
  cases c.dialect.diagnostics statement ts with
  | error cause => rfl
  | ok ofDialect =>
    cases hx : c.extended with
    | false => rfl
    | true =>
      simp [hextended, bind, Except.bind, pure, Except.pure, Except.map]

/-- Where every hook answers, the stages give a report with all its parts. -/
theorem stages_ok {c : Checker} (hd : c.dialect.Offered) (sql : String) {statement : Statement}
    {ts : List Token} (hstatement : Statement.classify? ts = some statement)
    (hhooks : ∀ point, ∃ ds, c.dialect.hook point statement ts = .ok ds) :
    ∃ S G D E, c.Parts sql statement ts S G D E ∧
      c.stages sql statement ts = .ok (S ++ G ++ D ++ E) := by
  obtain ⟨vs, hvs, hstructure⟩ := Structure.diagnostics_ok sql c.dialect.maxDepth
  obtain ⟨ofExtended, hextended, hextendedAll, -⟩ := Extended.diagnostics_ok sql hstatement
  rcases c.dialect.diagnostics_cases statement ts with
    ⟨as, bs, cs, has, hbs, hcs, hall⟩ | ⟨point, cause, herror, -⟩
  · refine ⟨vs.map Structure.Violation.diagnostic, Grammar.diagnostics ts, as ++ bs ++ cs,
      if c.extended then ofExtended else [], ?_, ?_⟩
    · constructor
      · exact hstructure
      · exact allOf_map Structure.Violation.diagnostic (fun _ => ⟨rfl, rfl⟩) vs
      · rw [List.map_map]
        exact Structure.labels_sublist hvs
      · rfl
      · exact Grammar.allOf_diagnostics ts
      · exact ⟨as, bs, cs, has, hbs, hcs, rfl⟩
      · exact ((hd.hook_allOf has).append (hd.hook_allOf hbs)).append (hd.hook_allOf hcs)
      · intro hx
        rw [if_pos hx]
        exact hextended
      · intro hx
        rw [hx]
        rfl
      · split
        · exact hextendedAll
        · exact AllOf.nil _
    · rw [c.stages_eq sql hstructure hextended, hall]
      rfl
  · obtain ⟨ds, hds⟩ := hhooks point
    rw [herror] at hds
    cases hds

/-- Where a hook breaks down, so do the stages, and in the same way. -/
theorem stages_error {c : Checker} (hd : c.dialect.Offered) (sql : String)
    {statement : Statement} {ts : List Token}
    (hstatement : Statement.classify? ts = some statement) {point : Dialect.HookPoint}
    {cause : Crash} (hhook : c.dialect.hook point statement ts = .error cause) :
    c.stages sql statement ts = .error cause := by
  obtain ⟨vs, -, hstructure⟩ := Structure.diagnostics_ok sql c.dialect.maxDepth
  obtain ⟨ofExtended, hextended, -⟩ := Extended.diagnostics_ok sql hstatement
  rw [c.stages_eq sql hstructure hextended]
  rcases c.dialect.diagnostics_cases statement ts with
    ⟨as, bs, cs, has, hbs, hcs, -⟩ | ⟨other, cause', herror, hcause⟩
  · cases point with
    | statement => cases has.symm.trans hhook
    | clauses => cases hbs.symm.trans hhook
    | ddl => cases hcs.symm.trans hhook
  · rw [hcause, hd.crash_unique herror hhook]
    rfl

/-! ## Checks -/

theorem check_of_lexError (c : Checker) {sql : String} {e : Token.LexError}
    (h : Token.tokenize sql = .error e) : c.check sql = .error (.lexical e) := by
  rw [check, h]

theorem check_of_no_token (c : Checker) {sql : String} (h : Token.tokenize sql = .ok []) :
    c.check sql = .ok [Grammar.Violation.emptyQuery.diagnostic] := by
  rw [check, h]
  rfl

theorem check_of_tokens (c : Checker) {sql : String} {statement : Statement} {ts : List Token}
    (h : Token.tokenize sql = .ok ts) (hstatement : Statement.classify? ts = some statement) :
    c.check sql = (c.stages sql statement ts).mapError .crash := by
  simp only [check, h, hstatement]

theorem diagnose_of_ok {c : Checker} {sql : String} {ds : List Diagnostic}
    (h : c.check sql = .ok ds) : c.diagnose sql = ds := by
  rw [diagnose, h]

theorem diagnose_of_error {c : Checker} {sql : String} {failure : Failure}
    (h : c.check sql = .error failure) : c.diagnose sql = [failure.diagnostic] := by
  rw [diagnose, h]

end Checker

end QueryLint

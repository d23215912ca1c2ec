/-
  QueryLint.Proofs.Batch

  Queries of a batch are isolated. A run is nothing but the sink fed with the reviews of the
  queries, each made from its query and position alone, and the totals of these reviews
  (`runFrom_eq`); that holds in any monad. What follows is about sinks with a state and
  failures of their own: a failure ends the run, and until then every report is handed over in
  order.

  `Checker.run_isolates_queries` states it for every dialect, also one whose hooks break down,
  and for a sink that fails at any write or at none.
-/
import QueryLint.Checker
import Mathlib.Data.List.Basic

namespace QueryLint

/-! ## Totals -/

namespace Summary

/-- Counting keeps the balance of the totals. -/
theorem balanced_record {t : Summary} (h : t.processed = t.passed + t.failed) (r : Report) :
    (t.record r).processed = (t.record r).passed + (t.record r).failed := by
  rw [record]
  cases r.isSuccess <;> simp only [if_true, Bool.false_eq_true, if_false] <;> omega

/-- The totals stay balanced however many reports are counted. -/
theorem balanced_foldl_record {t : Summary} (h : t.processed = t.passed + t.failed)
    (rs : List Report) :
    (rs.foldl record t).processed = (rs.foldl record t).passed + (rs.foldl record t).failed := by
  induction rs generalizing t with
  | nil => exact h
  | cons r rs ih => exact ih (balanced_record h r)

theorem foldl_record (t : Summary) (rs : List Report) :
    rs.foldl record t =
      { t with
        processed := t.processed + rs.length
        passed := t.passed + rs.countP Report.isSuccess
        failed := t.failed + (rs.length - rs.countP Report.isSuccess) } := by
  induction rs generalizing t with
  | nil => rfl
  | cons r rs ih =>
    have hle : rs.countP Report.isSuccess ≤ rs.length := List.countP_le_length
    rw [List.foldl_cons, ih, record]
    cases hr : r.isSuccess with
    | true =>
      rw [List.countP_cons_of_pos hr, List.length_cons]
      simp only [if_true, mk.injEq, true_and]
      omega
    | false =>
      rw [List.countP_cons_of_neg (by simp [hr]), List.length_cons]
      simp only [Bool.false_eq_true, if_false, mk.injEq, true_and]
      omega

end Summary

namespace Checker

/-! ## A run feeds its sink -/

/-- The reviews of queries of which the first has position `id`. -/
def reviewsFrom (c : Checker) (id : Nat) (qs : List Query) : List Report :=
  qs.mapIdx fun i q => c.review (id + i) q

/-- The reviews of a batch. -/
def reviews (c : Checker) (qs : List Query) : List Report :=
  c.reviewsFrom 1 qs

theorem reviewsFrom_cons (c : Checker) (id : Nat) (q : Query) (qs : List Query) :
    c.reviewsFrom id (q :: qs) = c.review id q :: c.reviewsFrom (id + 1) qs := by
  have hshift : (fun i q => c.review (id + (i + 1)) q) = fun i q => c.review (id + 1 + i) q := by
    funext i q
    rw [Nat.add_right_comm, Nat.add_assoc]
  rw [reviewsFrom, List.mapIdx_cons, hshift]
  rfl

theorem reviewsFrom_append (c : Checker) (id : Nat) (front back : List Query) :
    c.reviewsFrom id (front ++ back) =
      c.reviewsFrom id front ++ c.reviewsFrom (id + front.length) back := by
  have hshift : ∀ i, id + (i + front.length) = id + front.length + i := by omega
  simp only [reviewsFrom, List.mapIdx_append, hshift]

@[simp] theorem length_reviewsFrom (c : Checker) (id : Nat) (qs : List Query) :
    (c.reviewsFrom id qs).length = qs.length := by
  rw [reviewsFrom, List.length_mapIdx]

variable {m : Type → Type} [Monad m] [LawfulMonad m]

/-- A run feeds its sink with the reviews and counts them, and does nothing else. -/
theorem runFrom_eq (c : Checker) (sink : Report → m Unit) (id : Nat) (t : Summary)
    (qs : List Query) :
    c.runFrom sink id t qs = (do
      forM (c.reviewsFrom id qs) sink
      pure ((c.reviewsFrom id qs).foldl Summary.record t)) := by
  induction qs generalizing id t with
  | nil => simp [runFrom, reviewsFrom]
  | cons q qs ih =>
    rw [runFrom, reviewsFrom_cons, List.forM_cons, List.foldl_cons, bind_assoc]
    simp only [ih]

/-- After any number of steps a run goes on from the totals so far. -/
theorem runFrom_append (c : Checker) (sink : Report → m Unit) (id : Nat) (t : Summary)
    (front back : List Query) :
    c.runFrom sink id t (front ++ back) = (do
      forM (c.reviewsFrom id front) sink
      c.runFrom sink (id + front.length)
        ((c.reviewsFrom id front).foldl Summary.record t) back) := by
  simp only [runFrom_eq, reviewsFrom_append, List.forM_append, List.foldl_append, bind_assoc]

end Checker

/-! ## Sinks with a state and failures -/

namespace Report

variable {ε σ : Type}

/-- What a sink does with reports one after another, from a state. -/
def feed (sink : Report → ExceptT ε (StateM σ) Unit) (rs : List Report) (s : σ) :
    Except ε Unit × σ :=
  (forM rs sink).run.run s

/-- The sink that notes each report before it hands it on. -/
def recorded (sink : Report → ExceptT ε (StateM σ) Unit) (r : Report) :
    ExceptT ε (StateM (σ × List Report)) Unit :=
  ExceptT.mk fun s => (((sink r).run.run s.1).1, (((sink r).run.run s.1).2, s.2 ++ [r]))

/-- From a state, the sink first fails on the `k`-th of these reports; `none` stands for a sink
    that takes them all. -/
def FirstFailsAt (sink : Report → ExceptT ε (StateM σ) Unit) (s : σ) (rs : List Report)
    (k : Option Nat) : Prop :=
  ∀ j ≤ rs.length, (feed sink (rs.take j) s).1 = .ok () ↔ ∀ i ∈ k, j < i

variable {sink : Report → ExceptT ε (StateM σ) Unit}

theorem run_run_bind_of_ok {α β : Type} {x : ExceptT ε (StateM σ) α} {s t : σ} {a : α}
    (h : x.run.run s = (.ok a, t)) (f : α → ExceptT ε (StateM σ) β) :
    (x >>= f).run.run s = (f a).run.run t := by
  rw [ExceptT.run_bind, StateT.run_bind, h]
  rfl

theorem run_run_bind_of_error {α β : Type} {x : ExceptT ε (StateM σ) α} {s t : σ} {e : ε}
    (h : x.run.run s = (.error e, t)) (f : α → ExceptT ε (StateM σ) β) :
    (x >>= f).run.run s = (.error e, t) := by
  rw [ExceptT.run_bind, StateT.run_bind, h]
  rfl

theorem feed_append_of_ok {front : List Report} {s t : σ} (h : feed sink front s = (.ok (), t))
    (back : List Report) : feed sink (front ++ back) s = feed sink back t := by
  rw [feed, List.forM_append, run_run_bind_of_ok h]
  rfl

theorem feed_singleton (r : Report) (s : σ) : feed sink [r] s = (sink r).run.run s := by
  have hpure : forM [r] sink = sink r := by simp
  rw [feed, hpure]

theorem feed_of_error {front : List Report} {r : Report} {s t u : σ} {e : ε}
    (hfront : feed sink front s = (.ok (), t)) (hr : (sink r).run.run t = (.error e, u))
    (back : List Report) : feed sink (front ++ r :: back) s = (.error e, u) := by
  rw [feed_append_of_ok hfront, feed, List.forM_cons, run_run_bind_of_error hr]

/-- A sink that first fails on its `k`-th write takes the reports, or takes those before one
    and fails on that. -/
theorem FirstFailsAt.cases {s : σ} {rs : List Report} {k : Option Nat}
    (h : FirstFailsAt sink s rs k) :
    ((∀ i ∈ k, rs.length < i) ∧ ∃ t, feed sink rs s = (.ok (), t)) ∨
      ∃ front r back t u e, rs = front ++ r :: back ∧ k = some (front.length + 1) ∧
        feed sink front s = (.ok (), t) ∧ (sink r).run.run t = (.error e, u) := by
  have htaken : ∀ j ≤ rs.length, (∀ i ∈ k, j < i) →
      ∃ t, feed sink (rs.take j) s = (.ok (), t) :=
    fun j hj hlt => ⟨(feed sink (rs.take j) s).2, Prod.ext ((h j hj).2 hlt) rfl⟩
  by_cases hlate : ∀ i ∈ k, rs.length < i
  · have hall := htaken rs.length (Nat.le_refl _) hlate
    rw [List.take_length] at hall
    exact .inl ⟨hlate, hall⟩
  · right
    simp only [not_forall, Nat.not_lt] at hlate
    obtain ⟨i, hi, hle⟩ := hlate
    have hpos := (h 0 (Nat.zero_le _)).1 rfl i hi
    rw [Option.mem_def] at hi
    subst hi
    -- The reports before the `i`-th are taken, and those up to it are not.
    obtain ⟨t, ht⟩ := htaken (i - 1) (by omega) (by simp; omega)
    have hfail := h i hle
    simp only [Option.mem_def, Option.some.injEq, forall_eq', Nat.lt_irrefl, iff_false] at hfail
    cases hdrop : rs.drop (i - 1) with
    | nil =>
      have := congrArg List.length hdrop
      rw [List.length_drop, List.length_nil] at this
      omega
    | cons r back =>
      have hsplit : rs = rs.take (i - 1) ++ r :: back := by
        rw [← hdrop, List.take_append_drop]
      have hlength : (rs.take (i - 1)).length = i - 1 := by
        rw [List.length_take]
        omega
      have htake : rs.take i = rs.take (i - 1) ++ [r] := by
        have hadd : i = i - 1 + 1 := by omega
        conv_lhs => rw [hadd, List.take_add, hdrop]
        rfl
      rw [htake, feed_append_of_ok ht, feed_singleton] at hfail
      rcases hr : (sink r).run.run t with ⟨x, u⟩
      rw [hr] at hfail
      cases x with
      | ok => exact absurd rfl hfail
      | error e =>
        refine ⟨_, r, back, t, u, e, hsplit, ?_, ht, hr⟩
        rw [hlength]
        congr 1
        omega

/-! ## What is handed over -/

theorem recorded_run_run {r : Report} {s t : σ} {x : Except ε Unit}
    (h : (sink r).run.run s = (x, t)) (log : List Report) :
    (recorded sink r).run.run (s, log) = (x, (t, log ++ [r])) := by
  show (((sink r).run.run s).1, (((sink r).run.run s).2, log ++ [r])) = _
  rw [h]

/-- A sink that takes reports has been handed them. -/
theorem feed_recorded {rs : List Report} {s t : σ} (h : feed sink rs s = (.ok (), t))
    (log : List Report) : feed (recorded sink) rs (s, log) = (.ok (), (t, log ++ rs)) := by
  induction rs generalizing s log with
  | nil =>
    cases h
    rw [List.append_nil]
    rfl
  | cons r rs ih =>
    -- A sink that takes them all takes the first, so the log goes on with the rest.
    rcases hr : (sink r).run.run s with ⟨x, u⟩
    cases x with
    | ok =>
      have htail : feed sink rs u = (.ok (), t) := by
        rw [← h, feed, feed, List.forM_cons, run_run_bind_of_ok hr]
      rw [feed, List.forM_cons, run_run_bind_of_ok (recorded_run_run hr log)]
      have := ih htail (log ++ [r])
      rw [List.append_assoc] at this
      exact this
    | error e =>
      rw [feed, List.forM_cons, run_run_bind_of_error hr] at h
      cases h

end Report

namespace Checker

open Report

variable {ε σ : Type}

/-- The reports a run hands to a sink, in order. -/
def handedOver (c : Checker) (timestamp : String) (sink : Report → ExceptT ε (StateM σ) Unit)
    (qs : List Query) (s : σ) : List Report :=
  ((c.run timestamp (recorded sink) qs).run.run (s, [])).2.2

theorem run_of_ok (c : Checker) (timestamp : String) {sink : Report → ExceptT ε (StateM σ) Unit}
    {qs : List Query} {s t : σ} (h : feed sink (c.reviews qs) s = (.ok (), t)) :
    (c.run timestamp sink qs).run.run s =
      (.ok ((c.reviews qs).foldl Summary.record (.empty c.dialect.name timestamp)), t) := by
  rw [run, runFrom_eq, ← reviews, run_run_bind_of_ok h]
  rfl

theorem run_of_error (c : Checker) (timestamp : String)
    {sink : Report → ExceptT ε (StateM σ) Unit} {qs : List Query} {s t : σ} {e : ε}
    (h : feed sink (c.reviews qs) s = (.error e, t)) :
    (c.run timestamp sink qs).run.run s = (.error e, t) := by
  rw [run, runFrom_eq, ← reviews, run_run_bind_of_error h]

theorem handedOver_of_ok (c : Checker) (timestamp : String)
    {sink : Report → ExceptT ε (StateM σ) Unit} {qs : List Query} {s t : σ}
    (h : feed sink (c.reviews qs) s = (.ok (), t)) :
    c.handedOver timestamp sink qs s = c.reviews qs := by
  rw [handedOver, run_of_ok c timestamp (feed_recorded h [])]
  rfl

/-- The report a sink fails on is the last it is handed. -/
theorem handedOver_of_error (c : Checker) (timestamp : String)
    {sink : Report → ExceptT ε (StateM σ) Unit} {qs : List Query} {front back : List Report}
    {r : Report} {s t u : σ} {e : ε} (hsplit : c.reviews qs = front ++ r :: back)
    (hfront : feed sink front s = (.ok (), t)) (hr : (sink r).run.run t = (.error e, u)) :
    c.handedOver timestamp sink qs s = front ++ [r] := by
  have hfeed := feed_of_error (feed_recorded hfront []) (recorded_run_run hr _) back
  rw [← hsplit] at hfeed
  rw [handedOver, run_of_error c timestamp hfeed]
  rfl

theorem isSuccess_review (c : Checker) (id : Nat) (q : Query) :
    (c.review id q).isSuccess = (c.diagnose q.sql).isEmpty := by
  rw [review, ofDiagnostics, isSuccess]
  cases (c.diagnose q.sql).isEmpty <;> rfl

theorem countP_isSuccess_reviewsFrom (c : Checker) (id : Nat) (qs : List Query) :
    (c.reviewsFrom id qs).countP isSuccess = qs.countP fun q => (c.diagnose q.sql).isEmpty := by
  induction qs generalizing id with
  | nil => rfl
  | cons q qs ih => rw [reviewsFrom_cons, List.countP_cons, List.countP_cons, ih, isSuccess_review]

/-- A run hands over the reviews in order, up to the one the sink first fails on. -/
theorem handedOver_eq (c : Checker) (timestamp : String) {qs : List Query}
    {sink : Report → ExceptT ε (StateM σ) Unit} {s : σ} {k : Option Nat}
    (hk : FirstFailsAt sink s (c.reviews qs) k) :
    c.handedOver timestamp sink qs s =
      (c.reviews qs).take (min (k.getD qs.length) qs.length) := by
  have hlength : (c.reviews qs).length = qs.length := c.length_reviewsFrom 1 qs
  rcases hk.cases with ⟨hlate, t, ht⟩ | ⟨front, r, back, t, u, e, hsplit, rfl, hfront, hr⟩
  · have hmin : min (k.getD qs.length) qs.length = qs.length := by
      cases k with
      | none => exact Nat.min_self _
      | some i =>
        have := hlate i rfl
        rw [Option.getD_some]
        omega
    rw [handedOver_of_ok c timestamp ht, hmin, List.take_of_length_le (Nat.le_of_eq hlength)]
  · have hmin : min (front.length + 1) qs.length = (front ++ [r]).length := by
      rw [← hlength, hsplit]
      simp only [List.length_append, List.length_cons, List.length_nil]
      omega
    rw [handedOver_of_error c timestamp hsplit hfront hr, Option.getD_some, hmin, hsplit,
      List.append_cons front r back, List.take_left]

theorem status_review (c : Checker) (id : Nat) (q : Query) :
    (c.review id q).status = .failed ↔ (c.review id q).diagnostics ≠ [] := by
  show (if (c.diagnose q.sql).isEmpty then Status.success else .failed) = .failed ↔
    c.diagnose q.sql ≠ []
  cases c.diagnose q.sql <;> simp

/-- The queries of a batch are isolated, whatever the dialect. The sink is handed the reviews of
    the queries, in order and up to the one it first fails on, and its failure is the failure
    of the run. Without a failure, all queries are counted, and as passed those without
    diagnostics. After each step the totals are balanced and the run goes on from them. A
    report has failed exactly if it has diagnostics, and it has the source and the text of its
    query. -/
theorem run_isolates_queries (c : Checker) (timestamp : String) (qs : List Query)
    (sink : Report → ExceptT ε (StateM σ) Unit) (s : σ) (k : Option Nat)
    (hk : FirstFailsAt sink s (c.reviews qs) k) :
    (c.handedOver timestamp sink qs s =
      (c.reviews qs).take (min (k.getD qs.length) qs.length)) ∧
    (∀ i ∈ k, i ≤ qs.length → ∃ front r t u e,
      c.handedOver timestamp sink qs s = front ++ [r] ∧ feed sink front s = (.ok (), t) ∧
      (sink r).run.run t = (.error e, u) ∧
      (c.run timestamp sink qs).run.run s = (.error e, u)) ∧
    ((∀ i ∈ k, qs.length < i) → ((c.run timestamp sink qs).run.run s).1 =
      .ok { Summary.empty c.dialect.name timestamp with
        processed := qs.length
        passed := qs.countP fun q => (c.diagnose q.sql).isEmpty
        failed := qs.length - qs.countP fun q => (c.diagnose q.sql).isEmpty }) ∧
    (∀ front back, qs = front ++ back → ∃ t : Summary,
      t.processed = front.length ∧ t.processed = t.passed + t.failed ∧
      c.run timestamp sink qs = (do
        forM (c.reviews front) sink
        c.runFrom sink (1 + front.length) t back)) ∧
    (∀ (i : Nat) (q : Query) (r : Report), qs[i]? = some q →
      (c.handedOver timestamp sink qs s)[i]? = some r →
      r = c.review (i + 1) q ∧ (r.status = .failed ↔ r.diagnostics ≠ []) ∧
        r.source = q.source ∧ r.sql = q.sql) := by
  have hlength : (c.reviews qs).length = qs.length := c.length_reviewsFrom 1 qs
  have hhanded := c.handedOver_eq timestamp hk
  refine ⟨hhanded, ?_, ?_, ?_, ?_⟩
  · intro i hi hle
    rcases hk.cases with ⟨hlate, -⟩ | ⟨front, r, back, t, u, e, hsplit, -, hfront, hr⟩
    · have := hlate i hi
      omega
    · have hfeed := feed_of_error hfront hr back
      rw [← hsplit] at hfeed
      exact ⟨front, r, t, u, e, handedOver_of_error c timestamp hsplit hfront hr, hfront, hr,
        run_of_error c timestamp hfeed⟩
  · intro hlate
    rcases hk.cases with ⟨-, t, ht⟩ | ⟨front, r, back, t, u, e, hsplit, rfl, -⟩
    · rw [run_of_ok c timestamp ht, Summary.foldl_record, hlength, reviews,
        countP_isSuccess_reviewsFrom]
      simp [Summary.empty]
    · have := hlate _ rfl
      rw [← hlength, hsplit, List.length_append, List.length_cons] at this
      omega
  · rintro front back rfl
    refine ⟨(c.reviews front).foldl Summary.record (.empty c.dialect.name timestamp), ?_, ?_, ?_⟩
    · rw [Summary.foldl_record, reviews, length_reviewsFrom]
      simp [Summary.empty]
    · exact Summary.balanced_foldl_record rfl _
    · exact c.runFrom_append sink 1 _ front back
  · intro i q r hq hr
    rw [hhanded, List.getElem?_take] at hr
    split at hr
    · rw [reviews, reviewsFrom, List.getElem?_mapIdx, hq, Option.map_some, Nat.add_comm] at hr
      cases hr
      exact ⟨rfl, c.status_review (i + 1) q, rfl, rfl⟩
    · cases hr

/-- Three queries of a dialect whose hook breaks down, and a sink that is full after one
    report: it is handed two. -/
theorem run_isolates_queries_full :
    let c := Checker.mk (.plain "plain" 3 (some (.clauses, .saying "out of order"))) true
    let qs := [⟨"a.sql", "DROP"⟩, ⟨"b.sql", "?"⟩, ⟨"c.sql", ""⟩]
    let sink : Report → ExceptT String (StateM Nat) Unit := fun _ =>
      ExceptT.mk fun n => if n = 0 then (.ok (), 1) else (.error "full", n)
    FirstFailsAt sink 0 (c.reviews qs) (some 2) ∧
    c.handedOver "noon" sink qs 0 = [c.review 1 ⟨"a.sql", "DROP"⟩, c.review 2 ⟨"b.sql", "?"⟩] ∧
    (c.run "noon" sink qs).run.run 0 = (.error "full", 1) := by
  intro c qs sink
  have hk : FirstFailsAt sink 0 (c.reviews qs) (some 2) := by
    intro j hj
    have hlength : (c.reviews qs).length = 3 := rfl
    have hcases : j = 0 ∨ j = 1 ∨ j = 2 ∨ j = 3 := by omega
    rw [show (∀ i ∈ some 2, j < i) ↔ j < 2 by simp]
    rcases hcases with rfl | rfl | rfl | rfl
    · exact iff_of_true rfl (by omega)
    · exact iff_of_true rfl (by omega)
    · exact iff_of_false (fun h => nomatch h) (by omega)
    · exact iff_of_false (fun h => nomatch h) (by omega)
  exact ⟨hk, (run_isolates_queries c "noon" qs sink 0 (some 2) hk).1, rfl⟩

end Checker

end QueryLint

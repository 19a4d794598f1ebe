import Mathlib.Algebra.Ring.Nat
import PlainJson.Proofs.Log.Attempts
import PlainJson.Proofs.Session.Setup

/-!
What issuing a record and reporting a summary do to the table of counts. The report writes to the
table that it reads; but its own logger is in the table, with a line of this kind counted, before
the first row is looked at, so that no row appears or goes while the rows are reported.
-/
set_option autoImplicit false

namespace PlainJson

namespace Log.Tally

/-- The lines that report a logger: one if anything was counted, and one for each severity that
was. -/
def rows (t : Tally) (logger : String) : Nat :=
  if 0 < t.totalOf logger then 1 + Severity.all.countP fun l => decide (0 < t.get logger l) else 0

theorem totalOf_pos_congr {t u : Tally} {logger : String}
    (h : ∀ l, 0 < u.get logger l ↔ 0 < t.get logger l) :
    0 < u.totalOf logger ↔ 0 < t.totalOf logger := by
  have hd := h .debug
  have hi := h .info
  have hw := h .warning
  have he := h .error
  have hc := h .critical
  rw [totalOf_eq, totalOf_eq]
  omega

end Log.Tally

namespace Session

open Log (Attempt)

def attempt (s : Session) (logger : String) (level : Int) : Attempt := ⟨logger, level, s.level⟩

theorem attempt_of_setup {s t : Session} (h : t.setup = s.setup) (logger : String) (level : Int) :
    t.attempt logger level = s.attempt logger level := by
  rw [attempt, attempt, level_of_setup h]

theorem issue_tally (s : Session) (logger : String) (level : Int) (message : String) :
    (s.issue logger level message).tally = s.tally.noteAttempt (s.attempt logger level) := by
  have hp : s.enabled level = (s.attempt logger level).passes := rfl
  unfold issue
  split
  · rename_i h
    rw [deliver_tally, count, Log.Tally.noteAttempt, Attempt.counted, ← hp, h]
    by_cases hl : Log.isPlain logger <;> simp [hl, attempt]
  · rename_i h
    rw [Log.Tally.noteAttempt, Attempt.counted, ← hp]
    simp [h]

/-- Every line of a summary is asked for in the same way. -/
def summaryLine (s : Session) : Attempt := s.attempt Log.summaryLogger Severity.info.rank

/-- Two lines, then those for each logger in the table as it is by then, and two more. -/
def summaryAttempts (s : Session) : List Attempt :=
  let opened := s.tally.noteAll (List.replicate 2 s.summaryLine)
  List.replicate 2 s.summaryLine ++
    List.replicate ((opened.names.map opened.rows).sum + 2) s.summaryLine

variable {o u : Session} {k : Nat}

/-- A session in the course of a summary whose list began with `o`, after `k` more lines. -/
structure Reporting (o : Session) (k : Nat) (u : Session) : Prop where
  setup : u.setup = o.setup
  tally : u.tally = o.tally.noteAll (List.replicate k o.summaryLine)

theorem Reporting.summarize (h : Reporting o k u) (message : String) :
    Reporting o (k + 1) (u.summarize message) := by
  refine ⟨(summarize_setup u message).trans h.setup, ?_⟩
  have hu : (u.summarize message).tally = u.tally.noteAttempt u.summaryLine := issue_tally u _ _ _
  rw [hu, List.replicate_succ', Log.Tally.noteAll_append, ← h.tally, summaryLine,
    attempt_of_setup h.setup]
  rfl

/-- The summary's own logger is in the table if its lines are counted. -/
def Opened (o : Session) : Prop :=
  o.summaryLine.counted = true → 0 < o.tally.get Log.summaryLogger .info

theorem Reporting.count_eq {m : Nat} (h : Reporting o k u) (hk : k = m) : Reporting o m u := hk ▸ h

theorem Reporting.get_pos (ho : o.Opened) (h : Reporting o k u) (logger : String) (l : Severity) :
    0 < u.tally.get logger l ↔ 0 < o.tally.get logger l := by
  rw [h.tally, Log.Tally.get_noteAll, List.countP_replicate]
  split
  · -- The only count that has grown is one that was above zero when the list began.
    rename_i hline
    obtain ⟨hc, hat⟩ := Bool.and_eq_true_iff.1 hline
    have hl : Log.summaryLogger = logger ∧ Severity.info.rank = l.rank := by
      simpa [Attempt.isAt, summaryLine, attempt] using hat
    obtain ⟨rfl, hl⟩ := hl
    obtain rfl : l = .info := by
      have hr := Severity.ofRank?_rank l
      rw [← hl, Severity.ofRank?_rank] at hr
      exact (Option.some.inj hr).symm
    exact iff_of_true (Nat.add_pos_left (ho hc) _) (ho hc)
  · rfl

theorem Reporting.severity (ho : o.Opened) (h : Reporting o k u) (logger : String) (l : Severity) :
    Reporting o (k + if 0 < o.tally.get logger l then 1 else 0) (u.reportSeverity logger l) := by
  simp only [reportSeverity, h.get_pos ho]
  split
  · exact h.summarize _
  · exact h

theorem Reporting.severities (ho : o.Opened) (h : Reporting o k u) (logger : String)
    (ls : List Severity) :
    Reporting o (k + ls.countP fun l => decide (0 < o.tally.get logger l))
      (ls.foldl (reportSeverity logger) u) := by
  induction ls generalizing k u with
  | nil => exact h
  | cons l ls ih =>
    refine (ih (h.severity ho logger l)).count_eq ?_
    rw [List.countP_cons]
    simp only [decide_eq_true_eq]
    omega

theorem Reporting.logger (ho : o.Opened) (h : Reporting o k u) (logger : String) :
    Reporting o (k + o.tally.rows logger) (u.reportLogger logger) := by
  have htotal := Log.Tally.totalOf_pos_congr (h.get_pos ho logger)
  simp only [reportLogger, Log.Tally.rows, htotal]
  split
  · exact ((h.summarize _).severities ho logger _).count_eq (Nat.add_assoc _ _ _)
  · exact h

theorem Reporting.loggers (ho : o.Opened) (h : Reporting o k u) (names : List String) :
    Reporting o (k + (names.map o.tally.rows).sum) (names.foldl reportLogger u) := by
  induction names generalizing k u with
  | nil => exact h
  | cons n ns ih =>
    refine (ih (h.logger ho n)).count_eq ?_
    rw [List.map_cons, List.sum_cons, Nat.add_assoc]

theorem reporting_openSummary (s : Session) : Reporting s 2 s.openSummary :=
  Reporting.summarize (k := 1) (Reporting.summarize ⟨rfl, rfl⟩ _) _

theorem opened_openSummary (s : Session) : s.openSummary.Opened := by
  have h := reporting_openSummary s
  intro hc
  have hline : s.openSummary.summaryLine = s.summaryLine := attempt_of_setup h.setup _ _
  rw [hline] at hc
  rw [h.tally, Log.Tally.get_noteAll, List.countP_replicate, hc]
  simp [Attempt.isAt, summaryLine, attempt]

theorem report_tally (s : Session) : s.report.tally = s.tally.noteAll s.summaryAttempts := by
  have h := reporting_openSummary s
  have hline : s.openSummary.summaryLine = s.summaryLine := attempt_of_setup h.setup _ _
  have hlist : Reporting s.openSummary 0 s.openSummary := ⟨rfl, rfl⟩
  have hrows := hlist.loggers (opened_openSummary s) s.openSummary.tally.names
  have hend := (hrows.summarize ("Grand Total Messages: " ++
    Text.numeral s.openSummary.tally.total)).summarize "-----------------------"
  refine hend.tally.trans ?_
  rw [hline, Nat.zero_add, summaryAttempts, Log.Tally.noteAll_append, ← h.tally]

end Session

end PlainJson

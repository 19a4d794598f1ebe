import PlainJson.Proofs.Log.Listing
import PlainJson.Proofs.Session.Journal

/-!
The report of a summary as data: the time, a row for each logger that has a total, and the grand
total. What a summary issues are the lines of its report.
-/
set_option autoImplicit false

namespace PlainJson

structure SummaryReport where
  runtime : String
  rows : List SummaryRow
  grandTotal : Nat
  deriving DecidableEq, Repr

def SummaryReport.lines (r : SummaryReport) : List String :=
  ["--- Logging Summary ---", "Total Session Runtime: " ++ r.runtime ++ " seconds"] ++
    r.rows.flatMap SummaryRow.lines ++
      ["Grand Total Messages: " ++ Text.numeral r.grandTotal, "-----------------------"]

namespace Session

/-- The report that a summary writes, if its lines are let through. -/
def summaryReport (s : Session) : SummaryReport :=
  let opened := s.tally.withLines s.summaryLine 2
  ⟨s.runtimeText, opened.listLoggers s.summaryLine opened.names, opened.total⟩

@[simp] theorem summarize_tally (s : Session) (message : String) :
    (s.summarize message).tally = s.tally.noteAttempt s.summaryLine :=
  issue_tally s _ _ _

@[simp] theorem summarize_summaryLine (s : Session) (message : String) :
    (s.summarize message).summaryLine = s.summaryLine :=
  attempt_of_setup (summarize_setup s message) _ _

theorem foldl_summarize_tally (s : Session) (lines : List String) :
    (lines.foldl summarize s).tally = s.tally.withLines s.summaryLine lines.length ∧
      (lines.foldl summarize s).summaryLine = s.summaryLine := by
  induction lines generalizing s with
  | nil => exact ⟨rfl, rfl⟩
  | cons m ms ih => simpa [Log.Tally.withLines, List.replicate_succ] using ih (s.summarize m)

theorem foldl_reportSeverity (s : Session) (logger : String) (ls : List Severity) :
    ls.foldl (reportSeverity logger) s =
      ((s.tally.listSeverities s.summaryLine logger ls).map fun c =>
        "    - " ++ c.1.name ++ ": " ++ Text.numeral c.2).foldl summarize s := by
  induction ls generalizing s with
  | nil => rfl
  | cons l ls ih =>
    rw [List.foldl_cons, ih, reportSeverity, Log.Tally.listSeverities]
    by_cases h : 0 < s.tally.get logger l <;> simp [h]

theorem reportLogger_eq (s : Session) (logger : String) :
    s.reportLogger logger =
      if 0 < s.tally.totalOf logger then (s.tally.row s.summaryLine logger).lines.foldl summarize s
      else s := by
  simp only [reportLogger, foldl_reportSeverity, summarize_tally, summarize_summaryLine]
  rfl

theorem foldl_reportLogger (s : Session) (names : List String) :
    names.foldl reportLogger s =
      ((s.tally.listLoggers s.summaryLine names).flatMap SummaryRow.lines).foldl summarize s := by
  induction names generalizing s with
  | nil => rfl
  | cons n ns ih =>
    rw [List.foldl_cons, ih, reportLogger_eq, Log.Tally.listLoggers]
    split
    · obtain ⟨ht, hl⟩ := foldl_summarize_tally s (s.tally.row s.summaryLine n).lines
      rw [ht, hl, List.flatMap_cons, List.foldl_append]
    · rfl

/-- What a summary issues are the lines of its report, one after another. -/
theorem report_eq (s : Session) : s.report = s.summaryReport.lines.foldl summarize s := by
  have hopen : s.openSummary = ["--- Logging Summary ---",
      "Total Session Runtime: " ++ s.runtimeText ++ " seconds"].foldl summarize s := rfl
  obtain ⟨ht, hl⟩ := foldl_summarize_tally s ["--- Logging Summary ---",
    "Total Session Runtime: " ++ s.runtimeText ++ " seconds"]
  rw [← hopen] at ht hl
  simp only [report, foldl_reportLogger, ht, hl, SummaryReport.lines, List.foldl_append]
  rfl

theorem countedLine {s : Session} (h : s.enabled Severity.info.rank = true) :
    CountedLine s.summaryLine where
  counted := by
    have hp : Log.isPlain Log.summaryLogger = false := by decide
    exact (Log.Attempt.counted_of_not_plain (a := s.summaryLine) hp).trans h
  logger := rfl
  level := rfl

/-- A summary asks for its logger and goes on from there. -/
theorem step_summary {s : Session} {name : String} {r : Reply}
    (h : (s.step (.getLogger name)).1 = .ok r) :
    s.step .summary = (.ok .none, (s.step (.getLogger name)).2.report) := by
  simp only [step_eq, perform_summary, perform_asking (c := .getLogger name) rfl,
    whenConfigured] at h ⊢
  cases hx : s.silenced.ensureConfigured with
  | mk answer t =>
    simp only [hx] at h ⊢
    obtain e | ⟨⟨⟩⟩ := answer
    · cases h
    · rfl

/-- Asking for a logger counts nothing. -/
theorem step_getLogger_tally (s : Session) (name : String) :
    (s.step (.getLogger name)).2.tally = s.tally :=
  step_tally s (.getLogger name)

theorem names_after {s : Session} (h : s.tally = []) (cs : List Command) :
    (s.after cs).tally.names =
      (((s.journal cs).filter Log.Attempt.counted).map Log.Attempt.logger).eraseDups := by
  have hempty : Log.Tally.names [] = ([] : List String).eraseDups := rfl
  rw [after_tally, h]
  exact Log.Tally.names_noteAll hempty _

theorem nodup_names_after {s : Session} (h : s.tally = []) (cs : List Command) :
    (s.after cs).tally.names.Nodup := by
  have hempty : (Log.Tally.names []).Nodup := List.nodup_nil
  rw [after_tally, h]
  exact Log.Tally.nodup_noteAll hempty _

end Session

end PlainJson

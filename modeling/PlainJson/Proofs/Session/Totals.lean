import PlainJson.Proofs.Session.Report

/-!
How far the numbers of a summary agree with each other. The grand total is taken before the list
begins, but each row when it is made; and a row shows its total before its counts. So all would add
up, if the lines of the list were not counted themselves.
-/
set_option autoImplicit false

namespace PlainJson.Session

open Log (summaryLogger)

/-- The table when the list of a summary begins has the summary's own logger in it. -/
theorem totalOf_opened {s : Session} (h : s.enabled Severity.info.rank = true) :
    0 < (s.tally.withLines s.summaryLine 2).totalOf summaryLogger := by
  rw [Log.Tally.totalOf_withLines (countedLine h), if_pos rfl]
  exact Nat.add_pos_right _ (by decide)

theorem sum_totals {s : Session} (h : s.enabled Severity.info.rank = true)
    (hn : s.tally.names.Nodup) :
    (s.summaryReport.rows.map SummaryRow.total).sum =
      s.summaryReport.grandTotal + ((s.summaryReport.rows.takeWhile fun row =>
        row.logger != summaryLogger).flatMap SummaryRow.lines).length := by
  have hopened : (s.tally.withLines s.summaryLine 2).names.Nodup := Log.Tally.nodup_noteAll hn _
  have htotal : s.summaryReport.grandTotal = _ := Log.Tally.total_eq hopened
  have hmem := Log.Tally.mem_names_of_totalOf_pos (totalOf_opened h)
  refine (Log.Tally.sum_total_listLoggers (k := 0) (countedLine h) (totalOf_opened h)
    hopened).trans ?_
  rw [if_pos hmem, htotal]
  rfl

theorem sum_counts {s : Session} (h : s.enabled Severity.info.rank = true) {row : SummaryRow}
    (hrow : row ∈ s.summaryReport.rows) :
    (row.counts.map Prod.snd).sum = row.total +
      if row.logger = summaryLogger then
        1 + if 0 < s.tally.get summaryLogger .debug then 1 else 0
      else 0 := by
  have hline := countedLine h
  obtain ⟨m, hm⟩ := Log.Tally.mem_listLoggers (t := s.tally) (k := 2) hrow
  generalize row.logger = name at hm
  subst hm
  by_cases hn : name = summaryLogger
  · subst hn
    rw [Log.Tally.sum_row_self hline, Log.Tally.get_withLines hline]
    simp [Log.Tally.row, Nat.add_assoc]
  · rw [Log.Tally.row_withLines_of_ne hline hn, Log.Tally.sum_recorded]
    simp [hn]

theorem exists_own_row {s : Session} (h : s.enabled Severity.info.rank = true) :
    ∃ row ∈ s.summaryReport.rows, row.logger = summaryLogger := by
  have hpos := totalOf_opened h
  have hmap := Log.Tally.map_logger_listLoggers (countedLine h) hpos 0
    (s.tally.withLines s.summaryLine 2).names
  have hmem : summaryLogger ∈ s.summaryReport.rows.map SummaryRow.logger :=
    hmap ▸ List.mem_filter.2 ⟨Log.Tally.mem_names_of_totalOf_pos hpos, by simpa using hpos⟩
  exact List.mem_map.1 hmem

/-- What the numbers of a summary come to. The totals of the loggers add up to the grand total, and
one more for each line that is ahead of the row of the summary's own logger. The counts of a logger
add up to its total, but for the summary's own logger, which always has a row: there they come to
one more, and to two more if it has records of severity debug. -/
theorem summary_adds_up_but_for_itself (s : Session) (h : s.tally = []) (cs : List Command)
    (r : Reply) (hr : ((s.after cs).step (.getLogger summaryLogger)).1 = .ok r)
    (hi : ((s.after cs).step (.getLogger summaryLogger)).2.enabled Severity.info.rank = true) :
    let t := ((s.after cs).step (.getLogger summaryLogger)).2
    let report := t.summaryReport
    (s.after cs).step .summary = (.ok .none, report.lines.foldl summarize t) ∧
      (report.rows.map SummaryRow.total).sum =
        report.grandTotal + ((report.rows.takeWhile fun row =>
          row.logger != summaryLogger).flatMap SummaryRow.lines).length ∧
      (∃ row ∈ report.rows, row.logger = summaryLogger) ∧
      ∀ row ∈ report.rows, (row.counts.map Prod.snd).sum = row.total +
        if row.logger = summaryLogger then
          1 + if 0 < t.tally.get summaryLogger .debug then 1 else 0
        else 0 := by
  have hn : ((s.after cs).step (.getLogger summaryLogger)).2.tally.names.Nodup := by
    rw [step_getLogger_tally]
    exact nodup_names_after h cs
  refine ⟨?_, sum_totals hi hn, exists_own_row hi, fun row => sum_counts hi⟩
  rw [← report_eq]
  exact step_summary hr

/-- The summary's own logger has a record of severity debug, and comes first. -/
theorem summary_adds_up_but_for_itself_early :
    let s := (fresh 0).after [.configure ⟨some "DEBUG", none, none, none, true⟩,
      .log "LoggingSummary" 10 "early", .log "app" 20 "started"]
    let t := (s.step (.getLogger summaryLogger)).2
    let report := t.summaryReport
    t.enabled Severity.info.rank = true ∧
      s.step .summary = (.ok .none, report.lines.foldl summarize t) ∧
      report.rows = [⟨"LoggingSummary", 3, [(.debug, 1), (.info, 4)]⟩, ⟨"app", 1, [(.info, 1)]⟩] ∧
      (report.rows.map SummaryRow.total).sum = report.grandTotal ∧
      ∃ row ∈ report.rows, (row.counts.map Prod.snd).sum = row.total + 2 := by
  intro s t report
  have hi : t.enabled Severity.info.rank = true := rfl
  have hrows : report.rows =
      [⟨"LoggingSummary", 3, [(.debug, 1), (.info, 4)]⟩, ⟨"app", 1, [(.info, 1)]⟩] := by
    decide +kernel
  obtain ⟨hx, htotals, -, hcounts⟩ := summary_adds_up_but_for_itself (fresh 0) rfl
    [.configure ⟨some "DEBUG", none, none, none, true⟩, .log "LoggingSummary" 10 "early",
      .log "app" 20 "started"] _ rfl hi
  have hown := hcounts ⟨"LoggingSummary", 3, [(.debug, 1), (.info, 4)]⟩ (hrows ▸ List.mem_cons_self)
  refine ⟨hi, hx, hrows, ?_, _, hrows ▸ List.mem_cons_self, hown⟩
  have hahead : (report.rows.takeWhile fun row => row.logger != summaryLogger) = [] := by
    rw [hrows]
    rfl
  rw [htotals, hahead]
  rfl

/-- Two of the lines are ahead of the row of the summary's own logger, so the totals come to five
and the grand total to three; and the own row shows a total of four and a count of five. -/
theorem summary_contradicts_itself :
    let s := (fresh 0).after [.configure ⟨some "INFO", none, none, none, true⟩,
      .log "app" 20 "started"]
    let t := (s.step (.getLogger summaryLogger)).2
    let report := t.summaryReport
    t.enabled Severity.info.rank = true ∧
      s.step .summary = (.ok .none, report.lines.foldl summarize t) ∧
      report.rows = [⟨"app", 1, [(.info, 1)]⟩, ⟨"LoggingSummary", 4, [(.info, 5)]⟩] ∧
      report.grandTotal = 3 ∧
      (report.rows.map SummaryRow.total).sum ≠ report.grandTotal ∧
      ¬∀ row ∈ report.rows, (row.counts.map Prod.snd).sum = row.total := by
  intro s t report
  have hx : s.step .summary = (.ok .none, t.report) :=
    step_summary (r := .logger true summaryLogger) rfl
  have hrows : report.rows =
      [⟨"app", 1, [(.info, 1)]⟩, ⟨"LoggingSummary", 4, [(.info, 5)]⟩] := by
    decide +kernel
  have htotal : report.grandTotal = 3 := by decide +kernel
  refine ⟨rfl, by rw [hx, report_eq], hrows, htotal, ?_, ?_⟩
  · rw [hrows, htotal]
    decide
  · rw [hrows]
    decide

end PlainJson.Session

import PlainJson.Proofs.Session.Totals

/-!
A summary goes through a table that changes while it does so. `walk` is a loop that would notice: it
takes each entry from the table as it is by then, and gives up if the table does not have the size
that it had when the loop began. Both loops of a summary can be walked in this way, and come to what
they come to when the loggers and the severities are known beforehand.
-/
set_option autoImplicit false

namespace PlainJson.Session

open Log (summaryLogger)

section
variable {α κ : Type}

/-- The size is looked at before an entry is taken, and once more at the end. -/
def walk (table : Session → List α) (body : Session → α → Option Session) (size : Nat) :
    Nat → Session → Option Session
  | 0, s => if (table s).length = size then some s else none
  | left + 1, s =>
    if (table s).length = size then
      match (table s)[size - (left + 1)]? with
      | some e => (body s e).bind (walk table body size left)
      | none => none
    else none

def walkAll (table : Session → List α) (body : Session → α → Option Session) (s : Session) :
    Option Session :=
  walk table body (table s).length (table s).length s

variable {table : Session → List α} {body : Session → α → Option Session} {keys : List κ}
  {f : Session → κ → Session} {P : Session → Prop}

/-- Before each entry the table has one entry for each key; the entry in the place of a key is taken
as the key is. -/
structure Walks (table : Session → List α) (body : Session → α → Option Session) (keys : List κ)
    (f : Session → κ → Session) (P : Session → Prop) : Prop where
  size : ∀ s, P s → (table s).length = keys.length
  entry : ∀ s (i : Nat) k, P s → keys[i]? = some k →
    ∃ e, (table s)[i]? = some e ∧ body s e = some (f s k)
  keeps : ∀ s k, P s → P (f s k)

theorem Walks.walk_eq (h : Walks table body keys f P) {before left : List κ}
    (hk : keys = before ++ left) {s : Session} (hs : P s) :
    walk table body keys.length left.length s = some (left.foldl f s) := by
  induction left generalizing before s with
  | nil => exact if_pos (h.size s hs)
  | cons k left ih =>
    -- As many keys are behind as entries have been taken.
    have hplace : keys.length - (left.length + 1) = before.length := by simp [hk]
    have hget : keys[before.length]? = some k := by simp [hk]
    have hnext : keys = (before ++ [k]) ++ left := by simp [hk]
    obtain ⟨e, he, hb⟩ := h.entry s _ k hs hget
    simp only [List.length_cons, walk, if_pos (h.size s hs), hplace, he, hb, Option.bind_some]
    exact ih hnext (h.keeps s k hs)

theorem Walks.walkAll_eq (h : Walks table body keys f P) {s : Session} (hs : P s) :
    walkAll table body s = some (keys.foldl f s) := by
  rw [walkAll, h.size s hs]
  exact h.walk_eq (List.nil_append keys).symm hs

end

/-- The counts of a logger as they are by then. -/
def countsOf (logger : String) (s : Session) : List (Severity × Nat) :=
  match s.tally.counts? logger with
  | some c => Severity.all.map fun l => (l, c.get l)
  | none => []

def walkSeverity (s : Session) (e : Severity × Nat) : Option Session :=
  some (if 0 < e.2 then s.summarize ("    - " ++ e.1.name ++ ": " ++ Text.numeral e.2) else s)

def walkLogger (s : Session) (e : String × Log.Counts) : Option Session :=
  if 0 < e.2.total then
    walkAll (countsOf e.1) walkSeverity
      (s.summarize ("Logger '" ++ e.1 ++ "': " ++ Text.numeral e.2.total ++ " messages"))
  else some s

/-- A report that would notice if one of its tables changed its size under it. -/
def walkReport (s : Session) : Option Session :=
  (walkAll tally walkLogger s.openSummary).map fun t => t.closeSummary s.openSummary.tally.total

variable {o u : Session} {k : Nat}

/-- While a summary lists the loggers, none is added to the table. -/
theorem Reporting.names (ho : o.Opened) (h : Reporting o k u) : u.tally.names = o.tally.names := by
  rw [h.tally]
  by_cases hc : o.summaryLine.counted = true
  · have hpos : 0 < o.tally.totalOf summaryLogger := by
      have hinfo := ho hc
      rw [Log.Tally.totalOf_eq]
      omega
    exact Log.Tally.names_withLines (Log.Tally.mem_names_of_totalOf_pos hpos) k
  · rw [Log.Tally.noteAll_replicate_of_not_counted (eq_false_of_ne_true hc)]

theorem Reporting.counts (ho : o.Opened) (h : Reporting o k u) {logger : String}
    (hm : logger ∈ o.tally.names) : ∃ c, u.tally.counts? logger = some c := by
  rw [← h.names ho, ← Log.Tally.isSome_counts?] at hm
  exact Option.isSome_iff_exists.1 hm

theorem walks_severities (ho : o.Opened) {logger : String} (hm : logger ∈ o.tally.names) :
    Walks (countsOf logger) walkSeverity Severity.all (reportSeverity logger)
      fun u => ∃ k, Reporting o k u where
  size := by
    rintro u ⟨k, hu⟩
    obtain ⟨c, hc⟩ := hu.counts ho hm
    simp [countsOf, hc]
  entry := by
    rintro u i l ⟨k, hu⟩ hl
    obtain ⟨c, hc⟩ := hu.counts ho hm
    have hget : u.tally.get logger l = c.get l := by simp [Log.Tally.get, hc]
    refine ⟨(l, c.get l), by simp [countsOf, hc, hl], ?_⟩
    rw [walkSeverity, reportSeverity, hget]
  keeps := by
    rintro u l ⟨k, hu⟩
    exact ⟨_, hu.severity ho logger l⟩

theorem walks_loggers (ho : o.Opened) (hn : o.tally.names.Nodup) :
    Walks tally walkLogger o.tally.names reportLogger fun u => ∃ k, Reporting o k u where
  size := by
    rintro u ⟨k, hu⟩
    rw [← hu.names ho, Log.Tally.names, List.length_map]
  entry := by
    rintro u i n ⟨k, hu⟩ hi
    have hm := List.mem_of_getElem? hi
    rw [← hu.names ho, Log.Tally.names, List.getElem?_map, Option.map_eq_some_iff] at hi
    obtain ⟨⟨n, c⟩, he, rfl⟩ := hi
    -- No name stands twice, so what the entry holds is what is found under its name.
    have hnodup : u.tally.names.Nodup := by rwa [hu.names ho]
    have hc : u.tally.counts? n = some c :=
      (lookup_eq_some_iff_mem hnodup).2 (List.mem_of_getElem? he)
    have htotal : u.tally.totalOf n = c.total := by simp [Log.Tally.totalOf, hc]
    refine ⟨_, he, ?_⟩
    simp only [walkLogger, reportLogger, htotal]
    split
    · exact (walks_severities ho hm).walkAll_eq ⟨_, hu.summarize _⟩
    · rfl
  keeps := by
    rintro u n ⟨k, hu⟩
    exact ⟨_, hu.logger ho n⟩

theorem walkReport_eq {s : Session} (hn : s.tally.names.Nodup) : s.walkReport = some s.report := by
  have h := reporting_openSummary s
  have hopen : s.openSummary.tally.names.Nodup := by
    rw [h.tally]
    exact Log.Tally.nodup_noteAll hn _
  have hstart : Reporting s.openSummary 0 s.openSummary := ⟨rfl, rfl⟩
  rw [walkReport, (walks_loggers (opened_openSummary s) hopen).walkAll_eq ⟨0, hstart⟩]
  rfl

/-- The rows of all other loggers show what the table held before the summary. -/
theorem filter_rows {s : Session} (h : s.enabled Severity.info.rank = true) :
    s.summaryReport.rows.filter (fun row => row.logger != summaryLogger) =
      (s.tally.names.filter fun n => n != summaryLogger && decide (0 < s.tally.totalOf n)).map
        fun n => ⟨n, s.tally.totalOf n, s.tally.recorded n⟩ := by
  have hline := countedLine h
  let opened := s.tally.withLines s.summaryLine 2
  have hshown : ∀ n, n ≠ summaryLogger → (⟨n, opened.totalOf n, opened.recorded n⟩ : SummaryRow) =
      ⟨n, s.tally.totalOf n, s.tally.recorded n⟩ := by
    intro n hn
    rw [← Log.Tally.row_of_ne hline hn, Log.Tally.row_withLines_of_ne hline hn]
  have hsame : ∀ n, (n != summaryLogger && decide (0 < opened.totalOf n)) =
      (n != summaryLogger && decide (0 < s.tally.totalOf n)) := by
    intro n
    by_cases hn : n = summaryLogger
    · simp [hn]
    · have htotal : opened.totalOf n = s.tally.totalOf n :=
        congrArg SummaryRow.total (hshown n hn)
      rw [htotal]
  calc s.summaryReport.rows.filter (fun row => row.logger != summaryLogger)
      = (opened.names.filter fun n => n != summaryLogger && decide (0 < opened.totalOf n)).map
          fun n => ⟨n, opened.totalOf n, opened.recorded n⟩ :=
        Log.Tally.filter_listLoggers hline (totalOf_opened h) 0 opened.names
    _ = (s.tally.names.filter fun n => n != summaryLogger && decide (0 < s.tally.totalOf n)).map
          fun n => ⟨n, opened.totalOf n, opened.recorded n⟩ := by
        simp only [hsame]
        rw [Log.Tally.filter_names_withLines hline s.tally 1]
    _ = _ := by
        refine List.map_congr_left fun n hn => hshown n ?_
        have hmem := (List.mem_filter.1 hn).2
        simp only [Bool.and_eq_true, bne_iff_ne] at hmem
        exact hmem.1

/-- What a summary that is let through shows of a session, and how it leaves the counts. The loggers
are given in their order. -/
structure Summarized (u : Session) (loggers : List String) (report : SummaryReport) (v : Session) :
    Prop where
  rows : report.rows.filter (fun row => row.logger != summaryLogger) =
    (loggers.filter fun n => n != summaryLogger && decide (0 < u.tally.totalOf n)).map
      fun n => ⟨n, u.tally.totalOf n, u.tally.recorded n⟩
  names : v.tally.names =
    if summaryLogger ∈ u.tally.names then u.tally.names else u.tally.names ++ [summaryLogger]
  others : ∀ name, name ≠ summaryLogger → v.tally.counts? name = u.tally.counts? name
  info : v.tally.get summaryLogger .info = u.tally.get summaryLogger .info + report.lines.length
  severities : ∀ l, l ≠ .info → v.tally.get summaryLogger l = u.tally.get summaryLogger l

theorem summarized {s : Session} (h : s.enabled Severity.info.rank = true) :
    s.Summarized s.tally.names s.summaryReport s.report := by
  have hline := countedLine h
  have ht : s.report.tally = s.tally.withLines s.summaryLine s.summaryReport.lines.length := by
    rw [report_eq]
    exact (foldl_summarize_tally s _).1
  have hlength : ∃ k, s.summaryReport.lines.length = k + 1 := by
    simp [SummaryReport.lines]
  refine ⟨filter_rows h, ?_, fun name hn => ?_, ?_, fun l hl => ?_⟩
  · obtain ⟨k, hk⟩ := hlength
    rw [ht, hk, Log.Tally.names_withLines_succ hline]
  · rw [ht, Log.Tally.withLines, Log.Tally.counts?_noteAll_replicate (a := s.summaryLine) hn]
  · rw [ht, Log.Tally.get_withLines hline, if_pos ⟨rfl, rfl⟩]
  · rw [ht, Log.Tally.get_withLines hline, if_neg fun he => hl he.2, Nat.add_zero]

/-- A summary whose lines are not let through counts nothing. -/
theorem report_tally_of_strict {s : Session} (h : s.enabled Severity.info.rank = false) :
    s.report.tally = s.tally := by
  have hp : s.summaryLine.passes = false := h
  have hc : s.summaryLine.counted = false := by rw [Log.Attempt.counted, hp, Bool.false_and]
  rw [report_eq, (foldl_summarize_tally s _).1, Log.Tally.withLines,
    Log.Tally.noteAll_replicate_of_not_counted hc]

/-- A summary is safe from the counting of its own lines. If its logger is handed out, then neither
the table nor the counts of a logger change their size while they are gone through. If its lines are
let through, then it has a row for every other logger with a total, in the order in which these were
first let through, with the counts as they were when it began; and afterwards only the counts of its
own logger have changed, of which that of info has grown by the number of its lines. -/
theorem summary_walks_safely (s : Session) (h : s.tally = []) (cs : List Command) (r : Reply)
    (hr : ((s.after cs).step (.getLogger summaryLogger)).1 = .ok r) :
    let u := s.after cs
    let t := (u.step (.getLogger summaryLogger)).2
    let report := t.summaryReport
    u.step .summary = (.ok .none, t.report) ∧ t.walkReport = some t.report ∧
      t.report = report.lines.foldl summarize t ∧
      (t.enabled Severity.info.rank = true →
        u.Summarized (((s.journal cs).filter Log.Attempt.counted).map Log.Attempt.logger).eraseDups
          report t.report) ∧
      (t.enabled Severity.info.rank = false → t.report.tally = u.tally) := by
  intro u t report
  have ht : t.tally = u.tally := step_getLogger_tally u summaryLogger
  have hn : t.tally.names.Nodup := by
    rw [ht]
    exact nodup_names_after h cs
  have hnames : u.tally.names =
      (((s.journal cs).filter Log.Attempt.counted).map Log.Attempt.logger).eraseDups :=
    names_after h cs
  refine ⟨step_summary hr, walkReport_eq hn, report_eq t, fun hi => ?_, fun hi => ?_⟩
  · have hs := summarized hi
    rw [ht, hnames] at hs
    exact ⟨ht ▸ hs.rows, ht ▸ hs.names, ht ▸ hs.others, ht ▸ hs.info, ht ▸ hs.severities⟩
  · rw [report_tally_of_strict hi, ht]

/-- The second summary of a session, in which the summary's own logger is between the others. -/
theorem summary_walks_safely_again :
    let u := (fresh 0).after [.configure ⟨some "INFO", none, none, none, true⟩,
      .log "app" 20 "started", .summary, .log "db" 40 "lost"]
    let t := (u.step (.getLogger summaryLogger)).2
    t.enabled Severity.info.rank = true ∧ t.walkReport = some t.report ∧
      t.summaryReport.rows.filter (fun row => row.logger != summaryLogger) =
        [⟨"app", 1, [(.info, 1)]⟩, ⟨"db", 1, [(.error, 1)]⟩] ∧
      t.report.tally.names = ["app", "LoggingSummary", "db"] ∧
      t.report.tally.get summaryLogger .info = 18 := by
  intro u t
  have hi : t.enabled Severity.info.rank = true := rfl
  obtain ⟨-, hwalk, -, hreport, -⟩ := summary_walks_safely (fresh 0) rfl
    [.configure ⟨some "INFO", none, none, none, true⟩, .log "app" 20 "started", .summary,
      .log "db" 40 "lost"] _ rfl
  have hs := hreport hi
  have hu : u.tally = [("app", ⟨0, 1, 0, 0, 0⟩), ("LoggingSummary", ⟨0, 8, 0, 0, 0⟩),
      ("db", ⟨0, 0, 0, 1, 0⟩)] := by
    decide +kernel
  have hlength : t.summaryReport.lines.length = 10 := by decide +kernel
  refine ⟨hi, hwalk, ?_, ?_, ?_⟩
  · rw [hs.rows]
    decide +kernel
  · rw [hs.names, hu]
    rfl
  · rw [hs.info, hu, hlength]
    rfl

end PlainJson.Session

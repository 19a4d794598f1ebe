import Mathlib.Algebra.Ring.Nat
import PlainJson.Proofs.Log.Attempts
import PlainJson.Proofs.Table

/-!
How the table of counts is listed while the list itself adds to it. Each number is read when its
line is made, and every line is counted for the logger of the summary. So a row shows what the table
held when the list began, and the lines since then, but only the row of the summary's own logger can
tell the difference.
-/
set_option autoImplicit false

namespace PlainJson

structure SummaryRow where
  logger : String
  total : Nat
  counts : List (Severity × Nat)
  deriving DecidableEq, Repr

def SummaryRow.lines (r : SummaryRow) : List String :=
  ("Logger '" ++ r.logger ++ "': " ++ Text.numeral r.total ++ " messages") ::
    r.counts.map fun c => "    - " ++ c.1.name ++ ": " ++ Text.numeral c.2

namespace Log.Tally

/-- The table after some more lines of a summary. -/
def withLines (line : Attempt) (t : Tally) (k : Nat) : Tally := t.noteAll (List.replicate k line)

/-- The severities of a logger that have a count, where each one that is listed adds a line to the
table. -/
def listSeverities (line : Attempt) (logger : String) (t : Tally) :
    List Severity → List (Severity × Nat)
  | [] => []
  | l :: ls =>
    if 0 < t.get logger l then
      (l, t.get logger l) :: listSeverities line logger (t.noteAttempt line) ls
    else listSeverities line logger t ls

/-- The total is read before the line that shows it is issued. -/
def row (line : Attempt) (t : Tally) (logger : String) : SummaryRow :=
  ⟨logger, t.totalOf logger, listSeverities line logger (t.noteAttempt line) Severity.all⟩

def listLoggers (line : Attempt) (t : Tally) : List String → List SummaryRow
  | [] => []
  | n :: ns =>
    if 0 < t.totalOf n then
      t.row line n :: listLoggers line (t.withLines line (t.row line n).lines.length) ns
    else listLoggers line t ns

/-- The counts of a logger that are above zero. -/
def recorded (t : Tally) (logger : String) : List (Severity × Nat) :=
  (Severity.all.filter fun l => decide (0 < t.get logger l)).map fun l => (l, t.get logger l)

end Log.Tally

/-- A line of a summary that is counted, which it is for the summary's own logger. -/
structure CountedLine (line : Log.Attempt) : Prop where
  counted : line.counted = true
  logger : line.logger = Log.summaryLogger
  level : line.level = Severity.info.rank

namespace Log.Tally

variable {line : Attempt} {t : Tally} {n : String} {ns : List String}

theorem withLines_add (t : Tally) (j k : Nat) :
    (t.withLines line j).withLines line k = t.withLines line (j + k) := by
  rw [withLines, withLines, ← noteAll_append, List.replicate_append_replicate, withLines]

theorem get_withLines (h : CountedLine line) (t : Tally) (k : Nat) (n : String) (l : Severity) :
    (t.withLines line k).get n l =
      t.get n l + if n = summaryLogger ∧ l = .info then k else 0 := by
  have hat : line.isAt n l = decide (n = summaryLogger ∧ l = .info) := by
    rw [Attempt.isAt, h.logger, h.level]
    by_cases hn : n = summaryLogger
    · cases l <;> simp [Severity.rank, hn]
    · have hb : (summaryLogger == n) = false := by simpa using Ne.symm hn
      simp [hn, hb]
  simp [withLines, get_noteAll, List.countP_replicate, h.counted, hat]

theorem get_line (h : CountedLine line) (t : Tally) (n : String) (l : Severity) :
    (t.noteAttempt line).get n l = t.get n l + if n = summaryLogger ∧ l = .info then 1 else 0 :=
  get_withLines h t 1 n l

theorem totalOf_withLines (h : CountedLine line) (t : Tally) (k : Nat) (n : String) :
    (t.withLines line k).totalOf n =
      t.totalOf n + if n = summaryLogger then k else 0 := by
  simp only [totalOf_eq, get_withLines h]
  by_cases hn : n = summaryLogger
  · simp [hn]
    omega
  · simp [hn]

theorem sum_totalOf_withLines (h : CountedLine line) (t : Tally) (k : Nat) (hns : ns.Nodup) :
    (ns.map (t.withLines line k).totalOf).sum =
      (ns.map t.totalOf).sum + if summaryLogger ∈ ns then k else 0 := by
  induction ns with
  | nil => rfl
  | cons n ns ih =>
    obtain ⟨hn, hns⟩ := List.nodup_cons.1 hns
    simp only [List.map_cons, List.sum_cons, ih hns, totalOf_withLines h, List.mem_cons]
    by_cases he : n = summaryLogger
    · rw [he] at hn
      simp [he, hn]
      omega
    · simp [he, Ne.symm he]
      omega

/-- Lines of a logger that is in the table add no other. -/
theorem names_withLines (hm : line.logger ∈ t.names) (k : Nat) :
    (t.withLines line k).names = t.names := by
  induction k generalizing t with
  | zero => rfl
  | succ k ih =>
    have hn : (t.noteAttempt line).names = t.names := by
      unfold noteAttempt
      split
      · rw [names_note, if_pos hm]
      · rfl
    exact (ih (hn ▸ hm)).trans hn

/-- The summary's own logger enters the table with the first line, if it is not there yet. -/
theorem names_withLines_succ (h : CountedLine line) (t : Tally) (k : Nat) :
    (t.withLines line (k + 1)).names =
      if summaryLogger ∈ t.names then t.names else t.names ++ [summaryLogger] := by
  have hfirst : (t.noteAttempt line).names =
      if summaryLogger ∈ t.names then t.names else t.names ++ [summaryLogger] := by
    rw [noteAttempt, if_pos h.counted, names_note, h.logger]
  have hm : line.logger ∈ (t.noteAttempt line).names := by
    rw [hfirst, h.logger]
    split <;> simp [*]
  exact (names_withLines hm k).trans hfirst

theorem filter_names_withLines (h : CountedLine line) (t : Tally) (k : Nat) (p : String → Bool) :
    (t.withLines line (k + 1)).names.filter (fun n => n != summaryLogger && p n) =
      t.names.filter fun n => n != summaryLogger && p n := by
  rw [names_withLines_succ h]
  split
  · rfl
  · simp

/-- The total of a table whose loggers are listed once each. -/
theorem total_eq (h : t.names.Nodup) : t.total = (t.names.map t.totalOf).sum := by
  have hrow : ∀ e ∈ t, t.totalOf e.1 = e.2.total := by
    intro e he
    have hl : t.lookup e.1 = some e.2 := (lookup_eq_some_iff_mem h).2 he
    simp only [totalOf, counts?, hl]
  have hmap : t.names.map t.totalOf = t.map fun e => e.2.total :=
    List.map_map.trans (List.map_congr_left hrow)
  rw [hmap, total, List.sum_eq_foldr, List.foldr_map]

theorem mem_names_of_totalOf_pos (h : 0 < t.totalOf n) : n ∈ t.names := by
  rw [← isSome_counts?]
  unfold totalOf at h
  split at h
  · simp [*]
  · cases h

theorem sum_filter_pos (f : Severity → Nat) (ls : List Severity) :
    (((ls.filter fun l => decide (0 < f l)).map fun l => (l, f l)).map Prod.snd).sum =
      (ls.map f).sum := by
  induction ls with
  | nil => rfl
  | cons l ls ih =>
    by_cases hl : 0 < f l
    · simpa [hl] using ih
    · simpa [hl, Nat.eq_zero_of_not_pos hl] using ih

theorem sum_recorded (t : Tally) (n : String) :
    ((t.recorded n).map Prod.snd).sum = t.totalOf n := by
  rw [recorded, sum_filter_pos, totalOf_eq]
  simp only [Severity.all, List.map_cons, List.map_nil, List.sum_cons, List.sum_nil]
  omega

theorem listSeverities_cons_pos {l : Severity} (hl : 0 < t.get n l) (ls : List Severity) :
    t.listSeverities line n (l :: ls) =
      (l, t.get n l) :: (t.noteAttempt line).listSeverities line n ls :=
  if_pos hl

theorem listSeverities_cons_zero {l : Severity} (hl : ¬0 < t.get n l) (ls : List Severity) :
    t.listSeverities line n (l :: ls) = t.listSeverities line n ls :=
  if_neg hl

/-- Counts to which the lines do not add are listed as they are. -/
theorem listSeverities_eq (h : CountedLine line) {ls : List Severity} {f : Severity → Nat}
    (hls : ∀ l ∈ ls, ¬(n = summaryLogger ∧ l = .info)) (hf : ∀ l ∈ ls, t.get n l = f l) :
    t.listSeverities line n ls =
      (ls.filter fun l => decide (0 < f l)).map fun l => (l, f l) := by
  induction ls generalizing t with
  | nil => rfl
  | cons l ls ih =>
    obtain ⟨-, hls⟩ := List.forall_mem_cons.1 hls
    obtain ⟨hl, hf⟩ := List.forall_mem_cons.1 hf
    by_cases hp : 0 < t.get n l
    · have hg : ∀ m ∈ ls, (t.noteAttempt line).get n m = f m := by
        intro m hm
        rw [get_line h, if_neg (hls m hm), Nat.add_zero, hf m hm]
      rw [listSeverities_cons_pos hp, ih hls hg]
      simp [← hl, hp]
    · rw [listSeverities_cons_zero hp, ih hls hf]
      simp [← hl, hp]

/-- The row of any other logger shows what the table holds. -/
theorem row_of_ne (h : CountedLine line) (hn : n ≠ summaryLogger) (t : Tally) :
    t.row line n = ⟨n, t.totalOf n, t.recorded n⟩ := by
  have hls : ∀ l ∈ Severity.all, ¬(n = summaryLogger ∧ l = .info) := fun _ _ he => hn he.1
  have hget : ∀ l ∈ Severity.all, (t.noteAttempt line).get n l = t.get n l := by
    intro l hl
    rw [get_line h, if_neg (hls l hl), Nat.add_zero]
  rw [row, listSeverities_eq h hls hget, recorded]

/-- The row of the summary's own logger shows one record more by severity than in total, and two
more if one of them is of the severity that is listed before its own. -/
theorem sum_row_self (h : CountedLine line) (t : Tally) :
    ((t.row line summaryLogger).counts.map Prod.snd).sum =
      t.totalOf summaryLogger + 1 + if 0 < t.get summaryLogger .debug then 1 else 0 := by
  have hget : ∀ (u : Tally) (m : Severity), m ≠ .info →
      (u.noteAttempt line).get summaryLogger m = u.get summaryLogger m := by
    intro u m hm
    simp [get_line h, hm]
  have hinfo : ∀ u : Tally,
      (u.noteAttempt line).get summaryLogger .info = u.get summaryLogger .info + 1 := by
    simp [get_line h]
  have hpos : ∀ u : Tally, 0 < (u.noteAttempt line).get summaryLogger .info := fun u =>
    (hinfo u).symm ▸ Nat.succ_pos _
  have hrest : ∀ u : Tally, ((u.listSeverities line summaryLogger
      [.warning, .error, .critical]).map Prod.snd).sum =
      u.get summaryLogger .warning + u.get summaryLogger .error + u.get summaryLogger .critical := by
    intro u
    rw [listSeverities_eq h (by simp) fun _ _ => rfl, sum_filter_pos]
    simp only [List.map_cons, List.map_nil, List.sum_cons, List.sum_nil]
    omega
  rw [totalOf_eq, row, Severity.all]
  by_cases hd : 0 < t.get summaryLogger .debug
  · have hd' : 0 < (t.noteAttempt line).get summaryLogger .debug := by rwa [hget t _ (by decide)]
    rw [listSeverities_cons_pos hd', listSeverities_cons_pos (hpos _)]
    simp only [List.map_cons, List.sum_cons, hrest, hget, hinfo, ne_eq, reduceCtorEq,
      not_false_eq_true, hd, if_true]
    omega
  · have hd' : ¬0 < (t.noteAttempt line).get summaryLogger .debug := by rwa [hget t _ (by decide)]
    rw [listSeverities_cons_zero hd', listSeverities_cons_pos (hpos _)]
    simp only [List.map_cons, List.sum_cons, hrest, hget, hinfo, ne_eq, reduceCtorEq,
      not_false_eq_true, hd, if_false]
    omega

theorem listLoggers_cons_pos (hp : 0 < t.totalOf n) (ns : List String) :
    t.listLoggers line (n :: ns) =
      t.row line n :: (t.withLines line (t.row line n).lines.length).listLoggers line ns :=
  if_pos hp

theorem listLoggers_cons_zero (hp : ¬0 < t.totalOf n) (ns : List String) :
    t.listLoggers line (n :: ns) = t.listLoggers line ns :=
  if_neg hp

/-- If the summary's own logger has a total, then no line gives a logger its first. -/
theorem totalOf_withLines_pos (h : CountedLine line) (ht : 0 < t.totalOf summaryLogger) (k : Nat)
    (n : String) : 0 < (t.withLines line k).totalOf n ↔ 0 < t.totalOf n := by
  rw [totalOf_withLines h]
  split
  · rename_i hn
    exact iff_of_true (Nat.add_pos_left (hn ▸ ht) k) (hn ▸ ht)
  · rfl

theorem mem_listLoggers {k : Nat} {r : SummaryRow}
    (hr : r ∈ (t.withLines line k).listLoggers line ns) :
    ∃ m, r = (t.withLines line m).row line r.logger := by
  induction ns generalizing k with
  | nil => cases hr
  | cons n ns ih =>
    by_cases hp : 0 < (t.withLines line k).totalOf n
    · rw [listLoggers_cons_pos hp, withLines_add] at hr
      obtain rfl | hr := List.mem_cons.1 hr
      · exact ⟨k, rfl⟩
      · exact ih hr
    · rw [listLoggers_cons_zero hp] at hr
      exact ih hr

theorem map_logger_listLoggers (h : CountedLine line) (ht : 0 < t.totalOf summaryLogger) (k : Nat)
    (ns : List String) :
    ((t.withLines line k).listLoggers line ns).map SummaryRow.logger =
      ns.filter fun n => decide (0 < t.totalOf n) := by
  induction ns generalizing k with
  | nil => rfl
  | cons n ns ih =>
    have hiff := totalOf_withLines_pos h ht k n
    by_cases hp : 0 < t.totalOf n
    · rw [listLoggers_cons_pos (hiff.2 hp), withLines_add, List.map_cons, ih]
      simp [hp, row]
    · rw [listLoggers_cons_zero (mt hiff.1 hp), ih]
      simp [hp]

theorem row_withLines_of_ne (h : CountedLine line) (hn : n ≠ summaryLogger) (t : Tally) (k : Nat) :
    (t.withLines line k).row line n = ⟨n, t.totalOf n, t.recorded n⟩ := by
  have hget : (t.withLines line k).get n = t.get n := by
    funext l
    rw [get_withLines h, if_neg fun he => hn he.1, Nat.add_zero]
  rw [row_of_ne h hn, totalOf_withLines h, if_neg hn, Nat.add_zero, recorded, hget, recorded]

/-- All rows but that of the summary's own logger show what the table held at the beginning. -/
theorem filter_listLoggers (h : CountedLine line) (ht : 0 < t.totalOf summaryLogger) (k : Nat)
    (ns : List String) :
    ((t.withLines line k).listLoggers line ns).filter (fun r => r.logger != summaryLogger) =
      (ns.filter fun n => n != summaryLogger && decide (0 < t.totalOf n)).map fun n =>
        ⟨n, t.totalOf n, t.recorded n⟩ := by
  let shown : String → SummaryRow := fun n => ⟨n, t.totalOf n, t.recorded n⟩
  generalize hrows : (t.withLines line k).listLoggers line ns = rows
  have hrow : ∀ r ∈ rows.filter (fun r => r.logger != summaryLogger),
      r = (shown ∘ SummaryRow.logger) r := by
    intro r hr
    obtain ⟨hr, hn⟩ := List.mem_filter.1 hr
    obtain ⟨m, hm⟩ := mem_listLoggers (hrows ▸ hr)
    rw [row_withLines_of_ne h (by simpa using hn)] at hm
    exact hm
  calc rows.filter (fun r => r.logger != summaryLogger)
      = (rows.filter (fun r => r.logger != summaryLogger)).map (shown ∘ SummaryRow.logger) := by
        rw [← List.map_congr_left hrow, List.map_id']
    _ = ((rows.map SummaryRow.logger).filter (· != summaryLogger)).map shown := by
        rw [List.filter_map, List.map_map]
        rfl
    _ = _ := by rw [← hrows, map_logger_listLoggers h ht, List.filter_filter]

/-- The totals of the rows add up to those of the table when the list began, and one more for each
line ahead of the row of the summary's own logger. -/
theorem sum_total_listLoggers (h : CountedLine line) (ht : 0 < t.totalOf summaryLogger) (k : Nat)
    (hns : ns.Nodup) :
    (((t.withLines line k).listLoggers line ns).map SummaryRow.total).sum =
      (ns.map (t.withLines line k).totalOf).sum +
        if summaryLogger ∈ ns then
          ((((t.withLines line k).listLoggers line ns).takeWhile fun r =>
            r.logger != summaryLogger).flatMap SummaryRow.lines).length
        else 0 := by
  induction ns generalizing k with
  | nil => rfl
  | cons n ns ih =>
    obtain ⟨hn, hns⟩ := List.nodup_cons.1 hns
    have hiff := totalOf_withLines_pos h ht k n
    by_cases hp : 0 < t.totalOf n
    · have hlogger : ((t.withLines line k).row line n).logger = n := rfl
      have htotal : ((t.withLines line k).row line n).total = (t.withLines line k).totalOf n := rfl
      rw [listLoggers_cons_pos (hiff.2 hp), withLines_add, List.map_cons, List.sum_cons, ih _ hns,
        ← withLines_add, sum_totalOf_withLines h _ _ hns, withLines_add, htotal]
      by_cases he : n = summaryLogger
      · -- No line is ahead of this row, and no later row shows the lines that it takes.
        subst he
        simp [hlogger, hn]
      · simp [hlogger, he, Ne.symm he]
        split <;> omega
    · have he : n ≠ summaryLogger := fun he => hp (he ▸ ht)
      have hzero : (t.withLines line k).totalOf n = 0 := Nat.eq_zero_of_not_pos (mt hiff.1 hp)
      rw [listLoggers_cons_zero (mt hiff.1 hp), ih _ hns]
      simp [hzero, Ne.symm he]

end Log.Tally

end PlainJson

import PlainJson.Time.Stopwatch

/-!
What a stopwatch shows. All that is done with one, with blocks in blocks and errors on the way, comes
down to a log of starts and stops, each with the next reading of either clock. What is shown is told
by the last stop of the log and the last start before it.
-/
set_option autoImplicit false

namespace PlainJson.Stopwatch

inductive Signal where
  | start | stop
  deriving DecidableEq, Repr

/-- In the log, `s` is at place `i` and not behind it. -/
def LastAt (s : Signal) (log : List Signal) (i : Nat) : Prop :=
  log[i]? = some s ∧ s ∉ log.drop (i + 1)

instance (s : Signal) (log : List Signal) (i : Nat) : Decidable (LastAt s log i) :=
  inferInstanceAs (Decidable (_ ∧ _))

section
variable {s u : Signal} {log : List Signal} {i : Nat}

theorem LastAt.lt (h : LastAt s log i) : i < log.length := (List.getElem?_eq_some_iff.1 h.1).1

theorem LastAt.le {j : Nat} (h : LastAt s log i) (hj : log[j]? = some s) : j ≤ i := by
  by_cases hlt : i < j
  · have hd : (log.drop (i + 1))[j - (i + 1)]? = some s := by
      rw [List.getElem?_drop, Nat.add_sub_cancel' hlt, hj]
    exact (h.2 (List.mem_of_getElem? hd)).elim
  · omega

theorem LastAt.unique {j : Nat} (h : LastAt s log i) (h' : LastAt s log j) : i = j :=
  Nat.le_antisymm (h'.le h.1) (h.le h'.1)

theorem lastAt_concat_self : LastAt s (log ++ [s]) i ↔ i = log.length := by
  have hend : LastAt s (log ++ [s]) log.length := ⟨by simp, by simp⟩
  refine ⟨fun h => h.unique hend, fun h => ?_⟩
  rw [h]
  exact hend

theorem lastAt_concat_of_ne (hne : s ≠ u) : LastAt s (log ++ [u]) i ↔ LastAt s log i := by
  by_cases hi : i < log.length
  · simp only [LastAt, List.getElem?_append_left hi, List.drop_append_of_le_length hi,
      List.mem_append, List.mem_singleton, hne, or_false]
  · refine ⟨fun h => ?_, fun h => (hi h.lt).elim⟩
    have hlt := h.lt
    rw [List.length_append, List.length_singleton] at hlt
    obtain rfl : i = log.length := by omega
    have hget := h.1
    rw [List.getElem?_concat_length, Option.some.injEq] at hget
    exact (hne hget.symm).elim

end

section
variable {clock : Nat → Reading} {log : List Signal}

/-- After the signals of the log, of which the one at place `n` had reading `n` of both clocks, the
stopwatch is to show this. -/
structure Shows (clock : Nat → Reading) (log : List Signal) (w : Stopwatch) : Prop where
  started : ∃ j, LastAt .start log j ∧ w.started = clock j
  unstopped : .stop ∉ log → w.elapsed = none ∧ w.stopped = none
  stopped : .stop ∈ log → ∃ i j, LastAt .stop log i ∧ LastAt .start (log.take i) j ∧
    w.elapsed = some ((clock i).perf - (clock j).perf) ∧ w.stopped = some (clock i).wall

theorem Shows.elapsed_eq_none {w : Stopwatch} (h : w.Shows clock log) :
    w.elapsed = none ↔ .stop ∉ log := by
  refine ⟨fun he hm => ?_, fun hn => (h.unstopped hn).1⟩
  obtain ⟨_, _, _, _, hs, _⟩ := h.stopped hm
  rw [he] at hs
  cases hs

/-- A start leaves what was measured as it is. -/
theorem Shows.start {w : Stopwatch} (h : w.Shows clock log) :
    (w.start (clock log.length)).Shows clock (log ++ [.start]) where
  started := ⟨log.length, lastAt_concat_self.2 rfl, rfl⟩
  unstopped hn := h.unstopped fun hm => hn (List.mem_append_left _ hm)
  stopped hm := by
    obtain ⟨i, j, hi, hj, he, hs⟩ := h.stopped (by simpa using hm)
    refine ⟨i, j, (lastAt_concat_of_ne (by decide)).2 hi, ?_, he, hs⟩
    rwa [List.take_append_of_le_length (Nat.le_of_lt hi.lt)]

/-- A stop measures from the last start, whether or not there was a stop in between. -/
theorem Shows.stop {w : Stopwatch} (h : w.Shows clock log) :
    (w.stop (clock log.length)).Shows clock (log ++ [.stop]) where
  started := by
    obtain ⟨j, hj, hr⟩ := h.started
    exact ⟨j, (lastAt_concat_of_ne (by decide)).2 hj, hr⟩
  unstopped hn := (hn (by simp)).elim
  stopped _ := by
    obtain ⟨j, hj, hr⟩ := h.started
    refine ⟨log.length, j, lastAt_concat_self.2 rfl, by simpa using hj, ?_, rfl⟩
    rw [elapsed_stop, hr]

end

/-- The error that ends a use, if it is not caught. -/
def Use.error? {ε : Type} : Use ε → Option ε
  | .done | .start | .stop | .enter | .exit | .caught _ => none
  | .fail e => some e
  | .block body => body.error?
  | .next first second =>
    match first.error? with
    | some e => some e
    | none => second.error?

/-- The starts and stops that a use comes down to. A block ends by a stop, whatever its body does. -/
def Use.signals {ε : Type} : Use ε → List Signal
  | .done | .fail _ => []
  | .start | .enter => [.start]
  | .stop | .exit => [.stop]
  | .block body => .start :: body.signals ++ [.stop]
  | .caught body => body.signals
  | .next first second =>
    match first.error? with
    | some _ => first.signals
    | none => first.signals ++ second.signals

/-- The signals of a stopwatch that was made and then used. To make one is to start it. -/
def Use.log {ε : Type} (use : Use ε) : List Signal := .start :: use.signals

def Use.after {ε : Type} (clock : Nat → Reading) (use : Use ε) : Timed :=
  (use.run clock (.make clock)).1

section
variable {ε : Type} {clock : Nat → Reading} {log : List Signal} {t : Timed}

theorem Use.run_caught (body : Use ε) (t : Timed) :
    ((Use.caught body).run clock t).1 = (body.run clock t).1 := by
  rw [run]
  split
  · rfl
  · rfl

theorem Use.run_next_of_ok {first : Use ε} {a : Answer} (h : (first.run clock t).2 = .ok a)
    (second : Use ε) :
    (first.next second).run clock t = second.run clock (first.run clock t).1 := by
  simp only [run, h]

theorem Use.run_next_of_error {first : Use ε} {e : ε} (h : (first.run clock t).2 = .error e)
    (second : Use ε) : (first.next second).run clock t = ((first.run clock t).1, .error e) := by
  simp only [run, h]

/-- What a block answers to its own leaving keeps no error back. -/
theorem Use.run_block (body : Use ε) (t : Timed) :
    (Use.block body).run clock t =
      ((body.run clock (t.start clock)).1.stop clock, (body.run clock (t.start clock)).2) := rfl

/-- How a use ends does not depend on the stopwatch. -/
theorem Use.run_ends (clock : Nat → Reading) (use : Use ε) (t : Timed) :
    (∃ a, (use.run clock t).2 = .ok a) ∧ use.error? = none ∨
      ∃ e, (use.run clock t).2 = .error e ∧ use.error? = some e := by
  induction use generalizing t with
  | done | start | stop | enter | exit => exact .inl ⟨⟨_, rfl⟩, rfl⟩
  | fail e => exact .inr ⟨e, rfl, rfl⟩
  | block body ih => exact ih (t.start clock)
  | caught body ih =>
    refine .inl ⟨?_, rfl⟩
    rcases ih t with ⟨⟨a, ha⟩, -⟩ | ⟨e, he, -⟩
    · exact ⟨a, by simp only [run, ha]⟩
    · exact ⟨.none, by simp only [run, he]⟩
  | next first second ih₁ ih₂ =>
    rcases ih₁ t with ⟨⟨a, ha⟩, hn⟩ | ⟨e, he, hs⟩
    · rw [run_next_of_ok ha, error?, hn]
      exact ih₂ (first.run clock t).1
    · exact .inr ⟨e, by rw [run_next_of_error he], by rw [error?, hs]⟩

/-- A stopwatch in use after the signals of the log: each had one reading of either clock. -/
structure Logged (clock : Nat → Reading) (log : List Signal) (t : Timed) : Prop where
  perfs : t.perfs = log.length
  walls : t.walls = log.length
  shows : t.watch.Shows clock log

theorem Logged.reading (h : Logged clock log t) : t.reading clock = clock log.length := by
  rw [Timed.reading, h.perfs, h.walls]

theorem logged_make (clock : Nat → Reading) : Logged clock [.start] (.make clock) where
  perfs := rfl
  walls := rfl
  shows := {
    started := ⟨0, by decide, rfl⟩
    unstopped := fun _ => ⟨rfl, rfl⟩
    stopped := fun hm => by simp at hm }

theorem Logged.start (h : Logged clock log t) : Logged clock (log ++ [.start]) (t.start clock) where
  perfs := by simp [Timed.start, h.perfs]
  walls := by simp [Timed.start, h.walls]
  shows := by
    rw [Timed.start, h.reading]
    exact h.shows.start

theorem Logged.stop (h : Logged clock log t) : Logged clock (log ++ [.stop]) (t.stop clock) where
  perfs := by simp [Timed.stop, h.perfs]
  walls := by simp [Timed.stop, h.walls]
  shows := by
    rw [Timed.stop, h.reading]
    exact h.shows.stop

/-- Each use adds its signals to the log. -/
theorem Logged.run (h : Logged clock log t) (use : Use ε) :
    Logged clock (log ++ use.signals) (use.run clock t).1 := by
  induction use generalizing log t with
  | done | fail =>
    rw [Use.signals, List.append_nil]
    exact h
  | start | enter => exact h.start
  | stop | exit => exact h.stop
  | block body ih =>
    have hlog : log ++ (Use.block body).signals = log ++ [.start] ++ body.signals ++ [.stop] := by
      simp [Use.signals]
    rw [hlog, Use.run_block]
    exact (ih h.start).stop
  | caught body ih =>
    rw [Use.run_caught]
    exact ih h
  | next first second ih₁ ih₂ =>
    rcases first.run_ends clock t with ⟨⟨a, ha⟩, hn⟩ | ⟨e, he, hs⟩
    · rw [Use.run_next_of_ok ha, Use.signals, hn, ← List.append_assoc]
      exact ih₂ (ih₁ h)
    · rw [Use.run_next_of_error he, Use.signals, hs]
      exact ih₁ h

/-- One action after another, each after an error of the one before was caught. -/
def Use.sequence : List Action → Use Unit
  | [] => .done
  | a :: as => .next (.caught a.use) (sequence as)

theorem Use.run_sequence_cons (a : Action) (as : List Action) (t : Timed) :
    (sequence (a :: as)).run clock t = (sequence as).run clock (a.use.run clock t).1 := by
  rcases (caught a.use).run_ends clock t with ⟨⟨b, hb⟩, -⟩ | ⟨e, -, he⟩
  · rw [sequence, run_next_of_ok hb, run_caught]
  · cases he

theorem map_fst_historyFrom (clock : Nat → Reading) (t : Timed) (as : List Action) :
    (historyFrom clock t as).map Prod.fst = (List.range as.length).map fun n =>
      ((Use.sequence (as.take (n + 1))).run clock t).1.watch := by
  induction as generalizing t with
  | nil => rfl
  | cons a as ih =>
    simp only [historyFrom, List.map_cons, List.length_cons, List.range_succ_eq_map, List.map_map,
      List.take_succ_cons, Use.run_sequence_cons, ih, Function.comp_def, List.take_zero]
    rfl

theorem Use.logged_after (clock : Nat → Reading) (use : Use ε) :
    Logged clock use.log (use.after clock) :=
  (logged_make clock).run use

/-- However a stopwatch is used, each start and each stop takes one reading of either clock. Without
a stop nothing is measured. Otherwise the time from the last start before the last stop to that stop
is, and it is shown to the millisecond; the two times of the calendar are those of the last start and
of the last stop. An error raised in a block goes on when the block has been left, and so the
stopwatch stopped. The history of actions shows the stopwatch after each of them. -/
theorem shows_last_signals (clock : Nat → Reading) (use : Use ε) (actions : List Action) :
    (use.after clock).perfs = use.log.length ∧ (use.after clock).walls = use.log.length ∧
    ((use.after clock).watch.elapsed = none ↔ .stop ∉ use.log) ∧
    (.stop ∈ use.log → ∃ i j, LastAt .stop use.log i ∧ LastAt .start (use.log.take i) j ∧
      (use.after clock).watch.elapsed = some ((clock i).perf - (clock j).perf) ∧
      (use.after clock).watch.elapsedTime =
        some (Double.roundTo ((clock i).perf - (clock j).perf) 3) ∧
      (use.after clock).watch.endTimestamp = some (Calendar.timestamp (clock i).wall)) ∧
    (∃ j, LastAt .start use.log j ∧
      (use.after clock).watch.startTimestamp = Calendar.timestamp (clock j).wall) ∧
    (∀ t u e, use.run clock (t.start clock) = (u, .error e) →
      (Use.block use).run clock t = (u.stop clock, .error e)) ∧
    (history clock 1 (.make (clock 0)) actions).map Prod.fst =
      (List.range actions.length).map fun n =>
        ((Use.sequence (actions.take (n + 1))).after clock).watch := by
  have h := use.logged_after clock
  refine ⟨h.perfs, h.walls, h.shows.elapsed_eq_none, fun hm => ?_, ?_, fun t u e hu => ?_,
    map_fst_historyFrom clock _ actions⟩
  · obtain ⟨i, j, hi, hj, he, hs⟩ := h.shows.stopped hm
    refine ⟨i, j, hi, hj, he, ?_, ?_⟩
    · rw [elapsedTime, he, Option.map_some]
    · rw [endTimestamp, hs, Option.map_some]
  · obtain ⟨j, hj, hr⟩ := h.shows.started
    exact ⟨j, hj, by rw [startTimestamp, hr]⟩
  · rw [Use.run_block, hu]

end

def everyMinute (k : Nat) : Reading := ⟨Float.ofNat k, 60 * k⟩

/-- In the block, the stopwatch is stopped before the error; it is started once more behind it. -/
def interrupted : Use Nat := .next (.caught (.block (.next .stop (.fail 7)))) .start

/-- Both stops measure from the start of the block, and the last start changes nothing. -/
theorem shows_last_signals_interrupted :
    (.stop ∈ interrupted.log ∧
      (interrupted.after everyMinute).watch.elapsed =
        some ((everyMinute 3).perf - (everyMinute 1).perf) ∧
      (interrupted.after everyMinute).watch.startTimestamp =
        Calendar.timestamp (everyMinute 4).wall) ∧
    ((Use.next .stop (.fail 7)).run everyMinute ((Timed.make everyMinute).start everyMinute)).2 =
      .error 7 ∧
    ((Use.block (.next .stop (.fail 7))).run everyMinute (Timed.make everyMinute)).2 = .error 7 := by
  obtain ⟨-, -, -, hstop, ⟨j, hj, hs⟩, -⟩ := shows_last_signals everyMinute interrupted []
  obtain ⟨-, -, -, -, -, hblock, -⟩ :=
    shows_last_signals everyMinute (Use.next .stop (.fail 7)) []
  have hm : .stop ∈ interrupted.log := by decide
  obtain ⟨i, k, hi, hk, he, -⟩ := hstop hm
  obtain rfl : i = 3 := hi.unique (by decide)
  obtain rfl : k = 1 := hk.unique (by decide)
  obtain rfl : j = 4 := hj.unique (by decide)
  exact ⟨⟨hm, he, hs⟩, rfl, congrArg Prod.snd (hblock (Timed.make everyMinute) _ 7 rfl)⟩

end PlainJson.Stopwatch

import PlainJson.Proofs.Session.Steps
import PlainJson.Proofs.Session.Summary

/-!
The journal of a session: every record that its commands ask for, in order, with the level of the
root at that moment. What setting up logging has to say goes through loggers that do not count, and
is left out. The table of counts is what the journal comes to.
-/
set_option autoImplicit false

namespace PlainJson.Session

open Log (Attempt)

def onceConfigured (s : Session) (f : Session → List Attempt) : List Attempt :=
  match s.silenced.ensureConfigured with
  | (.ok (), t) => f t
  | (.error _, _) => []

def readerDebug (s : Session) : Attempt := s.attempt Log.readerLogger Severity.debug.rank

/-- What is noted at the end of a reading: why the text is refused, or the time that was taken if
the settings ask for it. -/
def endingAttempts (s : Session) : Except ReadError Value → List Attempt
  | .ok _ => if s.settings.debug then [s.readerDebug] else []
  | .error (.rejected _) => [s.readerDebug]
  | .error _ => []

def readingAttempts (s : Session) : Value → List Attempt
  | .text text => s.readerDebug :: s.endingAttempts (Document.read text)
  | _ => []

def fallbackAttempts (s : Session) : Except ReadError Value → List Attempt
  | .error (.rejected _) => [s.readerDebug]
  | _ => []

/-- The records that a command asks for. -/
def attempts (s : Session) : Command → List Attempt
  | .log name level _ => s.onceConfigured fun t => [t.attempt name level]
  | .perf name _ _ level _ =>
    s.onceConfigured fun t => if Log.isPlain name then [] else [t.attempt name level]
  | .summary => s.onceConfigured summaryAttempts
  | .read given => s.readingAttempts given
  | .readOr given _ => s.readingAttempts given ++ s.fallbackAttempts (Document.readGiven given)
  | .set .. | .configure _ | .getLogger _ | .clock _ | .touch _ => []

def journal (s : Session) : List Command → List Attempt
  | [] => []
  | c :: cs => s.attempts c ++ (s.step c).2.journal cs

theorem issueAt_plain_tally {logger : String} (h : Log.isPlain logger = true) (s : Session)
    (l : Severity) (message : String) : (s.issueAt logger l message).tally = s.tally :=
  (issue_tally s _ _ _).trans (Log.Tally.noteAttempt_of_plain h _)

theorem debugConfig_tally (s : Session) (message : String) :
    (s.debugConfig message).tally = s.tally :=
  issueAt_plain_tally (by decide) s _ _

theorem reportUnusable_tally (s : Session) (path : PathText) (e : OpenError) :
    (s.reportUnusable path e).2.tally = s.tally := by
  unfold reportUnusable
  split
  · exact issueAt_plain_tally (by decide) s _ _
  · rfl

theorem addFile_tally (s : Session) (r : Resolved) (path : PathText) (place : FilePath) :
    (s.addFile r path place).2.tally = s.tally := by
  unfold addFile
  split
  · rfl
  · exact debugConfig_tally _ _

theorem attachFile_tally (s : Session) (r : Resolved) : (s.attachFile r).2.tally = s.tally := by
  unfold attachFile
  split
  · rfl
  · split
    · exact reportUnusable_tally _ _ _
    · exact addFile_tally _ _ _ _

theorem install_tally (s : Session) (r : Resolved) : (s.install r).2.tally = s.tally := by
  unfold install
  split
  · rfl
  · rename_i n _
    split
    · rfl
    · rename_i h _
      have ha := attachFile_tally { s with level := n, handlers := [h] } r
      generalize attachFile { s with level := n, handlers := [h] } r = attached at ha
      obtain ⟨_ | _, t⟩ := attached
      · exact ha
      · exact (debugConfig_tally t _).trans ha

theorem noteStart_tally (s : Session) : s.noteStart.tally = s.tally := by
  unfold noteStart
  split <;> rfl

theorem configure_tally (s : Session) (c : Choices) : (s.configure c).2.tally = s.tally := by
  unfold configure
  split
  · exact debugConfig_tally s _
  · exact (install_tally _ _).trans (noteStart_tally s)

theorem ensureConfigured_tally (s : Session) : s.ensureConfigured.2.tally = s.tally := by
  unfold ensureConfigured
  split
  · rfl
  · exact configure_tally s _

theorem debugReader_tally (s : Session) (message : String) :
    (s.debugReader message).tally = s.tally.noteAttempt s.readerDebug :=
  issue_tally s _ _ _

theorem readerDebug_of_setup {s t : Session} (h : t.setup = s.setup) :
    t.readerDebug = s.readerDebug :=
  attempt_of_setup h _ _

theorem endingAttempts_of_setup {s t : Session} (h : t.setup = s.setup)
    (x : Except ReadError Value) : t.endingAttempts x = s.endingAttempts x := by
  unfold endingAttempts
  rw [readerDebug_of_setup h, settings_of_setup h]

theorem noteReading_tally (s : Session) (length : Nat) (time : Float) (x : Except ReadError Value) :
    (s.noteReading length time x).tally = s.tally.noteAll (s.endingAttempts x) := by
  rcases x with (⟨⟩ | ⟨⟩ | ⟨⟩) | v
  · rfl
  · exact debugReader_tally s _
  · rfl
  · simp only [noteReading, endingAttempts]
    split
    · exact debugReader_tally s _
    · rfl

theorem read_tally (s : Session) (given : Value) :
    (s.read given).2.tally = s.tally.noteAll (s.readingAttempts given) := by
  cases given with
  | text text =>
    simp only [read, readingAttempts, Log.Tally.noteAll_cons]
    rw [noteReading_tally]
    -- The end is noted later than the beginning, but under the same settings and the same level.
    generalize "Parsing JSON input (" ++ Text.numeral text.length ++ " chars)" = message
    have hu : (s.debugReader message).afterReadings.setup = s.setup := debugReader_setup s message
    rw [endingAttempts_of_setup hu, ← debugReader_tally s message]
    rfl
  | null | bool | int | double | list | tuple | dict => rfl

theorem noteFallback_tally (s : Session) (x : Except ReadError Value) :
    (s.noteFallback x).tally = s.tally.noteAll (s.fallbackAttempts x) := by
  rcases x with (⟨⟩ | ⟨⟩ | ⟨⟩) | v
  · rfl
  · exact debugReader_tally s _
  · rfl
  · rfl

theorem readOr_tally (s : Session) (given default : Value) :
    (s.readOr given default).2.tally =
      s.tally.noteAll
        (s.readingAttempts given ++ s.fallbackAttempts (Document.readGiven given)) := by
  have hf : (s.read given).2.fallbackAttempts (s.read given).1 =
      s.fallbackAttempts (Document.readGiven given) := by
    rw [read_fst]
    unfold fallbackAttempts
    rw [readerDebug_of_setup (read_setup s given)]
  rw [Log.Tally.noteAll_append, ← read_tally, ← hf]
  exact noteFallback_tally _ _

theorem onceConfigured_tally {c : Command} {next : Session → Step} {f : Session → List Attempt}
    (h : c.asking? = some next) (hf : ∀ t, (next t).2.tally = t.tally.noteAll (f t)) (s : Session) :
    (s.step c).2.tally = s.tally.noteAll (s.onceConfigured f) := by
  have ht : s.silenced.ensureConfigured.2.tally = s.tally := ensureConfigured_tally s.silenced
  rw [step_eq, perform_asking h, whenConfigured, onceConfigured, ← ht]
  generalize s.silenced.ensureConfigured = x
  obtain ⟨e | _, t⟩ := x
  · rfl
  · exact hf t

theorem onceConfigured_nil (s : Session) : s.onceConfigured (fun _ => []) = [] := by
  unfold onceConfigured
  split <;> rfl

/-- A step counts what it asks for and nothing else. -/
theorem step_tally (s : Session) (c : Command) :
    (s.step c).2.tally = s.tally.noteAll (s.attempts c) := by
  cases c with
  | set field x =>
    simp only [step, perform]
    split <;> rfl
  | configure c => exact configure_tally s.silenced c
  | getLogger name =>
    have h := onceConfigured_tally (c := .getLogger name) (f := fun _ => []) rfl (fun _ => rfl) s
    rwa [onceConfigured_nil] at h
  | log name level message => exact onceConfigured_tally rfl (fun t => issue_tally t _ _ _) s
  | perf name operation duration level metrics =>
    refine onceConfigured_tally rfl (fun t => ?_) s
    split
    · rfl
    · exact issue_tally t _ _ _
  | summary => exact onceConfigured_tally rfl report_tally s
  | clock => rfl
  | touch path =>
    simp only [step, perform]
    split <;> rfl
  | read given => exact read_tally s.silenced given
  | readOr given default => exact readOr_tally s.silenced given default

theorem after_tally (s : Session) (cs : List Command) :
    (s.after cs).tally = s.tally.noteAll (s.journal cs) := by
  induction cs generalizing s with
  | nil => rfl
  | cons c cs ih => rw [after_cons, ih, step_tally, journal, Log.Tally.noteAll_append]

/-- The counts are exact. In a session that began with none, after any commands, each count is the
number of records that were asked for at its severity, through its logger, while the root let them
through; a logger is in the table if one of its records was let through, and the loggers come in the
order in which that happened first. No step lowers a count, and none changes the counts of a logger
that it does not ask. -/
theorem counts_exact (s : Session) (h : s.tally = []) (cs : List Command) :
    (∀ name l, Log.isPlain name = false →
        (s.after cs).tally.get name l =
          (s.journal cs).countP fun a => a.passes && a.isAt name l) ∧
      (∀ name, Log.isPlain name = false →
        (((s.after cs).tally.counts? name).isSome = true ↔
          ∃ a ∈ s.journal cs, a.logger = name ∧ a.passes = true)) ∧
      (s.after cs).tally.names =
        (((s.journal cs).filter Attempt.counted).map Attempt.logger).eraseDups ∧
      ∀ c name,
        (∀ l, (s.after cs).tally.get name l ≤ ((s.after cs).step c).2.tally.get name l) ∧
          ((∀ a ∈ (s.after cs).attempts c, a.logger ≠ name) →
            ((s.after cs).step c).2.tally.counts? name = (s.after cs).tally.counts? name) := by
  have hnames : (s.after cs).tally.names =
      (((s.journal cs).filter Attempt.counted).map Attempt.logger).eraseDups := by
    have hempty : Log.Tally.names [] = ([] : List String).eraseDups := rfl
    rw [after_tally, h]
    exact Log.Tally.names_noteAll hempty _
  refine ⟨fun name l hp => ?_, fun name hp => ?_, hnames, fun c name => ⟨fun l => ?_, fun hc => ?_⟩⟩
  · rw [after_tally, h, Log.Tally.get_noteAll, Log.Tally.get_empty, Nat.zero_add]
    simp only [Attempt.counted_and_isAt hp]
  · rw [Log.Tally.isSome_counts?, hnames, List.mem_eraseDups, List.mem_map]
    refine exists_congr fun a => ?_
    rw [List.mem_filter, and_assoc, and_comm (a := a.counted = true)]
    refine and_congr_right fun _ => and_congr_right fun ha => ?_
    rw [Attempt.counted_of_not_plain (ha ▸ hp)]
  · rw [step_tally]
    exact Log.Tally.get_le_noteAll _ _ _ _
  · rw [step_tally]
    exact Log.Tally.counts?_noteAll_of_ne hc _

/-- The root is made stricter between two records of one logger. -/
theorem counts_exact_stricter :
    let cs : List Command := [.log "a" 20 "first",
      .configure ⟨some "WARNING", none, none, none, true⟩, .log "a" 20 "second",
      .log "b" 40 "third"]
    (fresh 0).tally = [] ∧
      (fresh 0).journal cs = [⟨"a", 20, 20⟩, ⟨"a", 20, 30⟩, ⟨"b", 40, 30⟩] ∧
      ((fresh 0).after cs).tally.get "a" .info = 1 ∧
      ((fresh 0).after cs).tally.names = ["a", "b"] := by
  have hj : (fresh 0).journal [.log "a" 20 "first",
      .configure ⟨some "WARNING", none, none, none, true⟩, .log "a" 20 "second",
      .log "b" 40 "third"] = [⟨"a", 20, 20⟩, ⟨"a", 20, 30⟩, ⟨"b", 40, 30⟩] := rfl
  obtain ⟨hget, -, hnames, -⟩ := counts_exact (fresh 0) rfl [.log "a" 20 "first",
    .configure ⟨some "WARNING", none, none, none, true⟩, .log "a" 20 "second",
    .log "b" 40 "third"]
  rw [hj] at hget hnames
  exact ⟨rfl, hj, (hget "a" .info (by decide)).trans (by decide), hnames.trans (by decide)⟩

end PlainJson.Session

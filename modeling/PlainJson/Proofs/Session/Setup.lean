import PlainJson.Session.Command

/-!
How a session is set up: its settings, whether and since when logging is configured, the level of
the root and its handlers. Whatever only issues records, such as a reading or a summary, leaves all
of this alone.
-/
set_option autoImplicit false

namespace PlainJson

structure Setup where
  settings : Settings
  configured : Bool
  started : Float
  level : Int
  handlers : List Handler

namespace Session

def setup (s : Session) : Setup := ⟨s.settings, s.configured, s.started, s.level, s.handlers⟩

variable {s t : Session}

theorem settings_of_setup (h : t.setup = s.setup) : t.settings = s.settings :=
  congrArg Setup.settings h

theorem level_of_setup (h : t.setup = s.setup) : t.level = s.level := congrArg Setup.level h

theorem foldl_setup {α : Type} {f : Session → α → Session} (h : ∀ s a, (f s a).setup = s.setup)
    (as : List α) (s : Session) : (as.foldl f s).setup = s.setup := by
  induction as generalizing s with
  | nil => rfl
  | cons a as ih => rw [List.foldl_cons, ih, h]

theorem writeTo_setup (r : Log.Record) (s : Session) (h : Handler) :
    (s.writeTo r h).setup = s.setup := by
  cases h <;> simp only [writeTo] <;> split <;> rfl

theorem deliver_setup (s : Session) (r : Log.Record) : (s.deliver r).setup = s.setup := by
  unfold deliver
  split
  · split <;> rfl
  · exact foldl_setup (writeTo_setup r) _ s

theorem count_setup (s : Session) (logger : String) (level : Int) :
    (s.count logger level).setup = s.setup := by
  unfold count
  split <;> rfl

@[simp] theorem issue_setup (s : Session) (logger : String) (level : Int) (message : String) :
    (s.issue logger level message).setup = s.setup := by
  unfold issue
  split
  · rw [deliver_setup, count_setup]
  · rfl

@[simp] theorem issueAt_setup (s : Session) (logger : String) (l : Severity) (message : String) :
    (s.issueAt logger l message).setup = s.setup :=
  issue_setup s logger l.rank message

@[simp] theorem debugReader_setup (s : Session) (message : String) :
    (s.debugReader message).setup = s.setup :=
  issueAt_setup s Log.readerLogger .debug message

theorem noteReading_setup (s : Session) (length : Nat) (time : Float) (x : Except ReadError Value) :
    (s.noteReading length time x).setup = s.setup := by
  rcases x with (⟨⟩ | ⟨⟩ | ⟨⟩) | v
  · rfl
  · exact debugReader_setup s _
  · rfl
  · simp only [noteReading]
    split
    · exact debugReader_setup s _
    · rfl

theorem read_setup (s : Session) (given : Value) : (s.read given).2.setup = s.setup := by
  cases given with
  | text => exact (noteReading_setup _ _ _ _).trans (debugReader_setup s _)
  | null | bool | int | double | list | tuple | dict => rfl

theorem noteFallback_setup (s : Session) (x : Except ReadError Value) :
    (s.noteFallback x).setup = s.setup := by
  unfold noteFallback
  split
  · exact debugReader_setup s _
  · rfl

theorem readOr_setup (s : Session) (given default : Value) :
    (s.readOr given default).2.setup = s.setup :=
  (noteFallback_setup _ _).trans (read_setup s given)

@[simp] theorem summarize_setup (s : Session) (message : String) :
    (s.summarize message).setup = s.setup :=
  issueAt_setup s Log.summaryLogger .info message

theorem reportSeverity_setup (logger : String) (s : Session) (l : Severity) :
    (s.reportSeverity logger l).setup = s.setup := by
  simp only [reportSeverity]
  split
  · exact summarize_setup s _
  · rfl

theorem reportLogger_setup (s : Session) (logger : String) :
    (s.reportLogger logger).setup = s.setup := by
  simp only [reportLogger]
  split
  · rw [foldl_setup (reportSeverity_setup logger), summarize_setup]
  · rfl

theorem report_setup (s : Session) : s.report.setup = s.setup := by
  simp only [report, closeSummary, openSummary, summarize_setup, foldl_setup reportLogger_setup]

end Session

end PlainJson

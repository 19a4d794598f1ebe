import PlainJson.Document
import PlainJson.Session.Configure
import PlainJson.Time.Stopwatch

/-!
Reading documents within a session. What is read depends on the text alone; the session adds records
of severity debug, the time taken, and the length of the snippet in the messages.
-/
set_option autoImplicit false

namespace PlainJson

namespace Session

def limit (s : Session) : Int := s.settings.snippetLength

def debugReader (s : Session) (message : String) : Session :=
  s.issueAt Log.readerLogger .debug message

/-- The clock of a session moves on by one tick with every reading; its calendar stands still. -/
def reading (s : Session) (k : Nat) : Reading := ⟨Float.ofNat (s.ticks + k) * s.tick, 0⟩

/-- A stopwatch takes a reading when it is made, when it is started and when it is stopped. -/
def stopwatch (s : Session) : Stopwatch :=
  ((Stopwatch.make (s.reading 0)).start (s.reading 1)).stop (s.reading 2)

/-- A text is read in a block, which is left also if reading ends by a fault. -/
theorem stopwatch_of_block (s : Session) (f : Fault) :
    ((Stopwatch.Use.block .done : Stopwatch.Use Fault).run s.reading (.make s.reading)).1 =
      ⟨s.stopwatch, 3, 3⟩ ∧
    ((Stopwatch.Use.block (.fail f)).run s.reading (.make s.reading)).1 = ⟨s.stopwatch, 3, 3⟩ :=
  ⟨rfl, rfl⟩

def afterReadings (s : Session) : Session := { s with ticks := s.ticks + 3 }

def readingTime (s : Session) : Float := s.stopwatch.elapsedTime.getD 0

/-- A metric that is named twice has its last value. -/
def metricsText (metrics : List (String × Value)) : String :=
  String.join ((placedEntries metrics).map fun m => " | " ++ m.1 ++ "=" ++ m.2.printed)

def performanceMessage (operation : String) (duration : Float)
    (metrics : List (String × Value)) : String :=
  "⚡ Performance | " ++ operation ++ " | Duration: " ++ Double.fixed duration 4 ++ "s" ++
    metricsText metrics

def noteText : Reason → String
  | .trailing => "Trailing input after JSON value: "
  | .unmatched | .incomplete => "No JSON value matched at: "

def shownSnippet (s : Session) (r : Rejection) : String :=
  String.ofList (Text.quote (Text.snippet s.limit r.remaining))

/-- The records that follow a reading of `length` characters that took `time`. -/
def noteReading (s : Session) (length : Nat) (time : Float) :
    Except ReadError Value → Session
  | .ok _ =>
    if s.settings.debug then
      s.debugReader (performanceMessage "parse_json" time [("chars", .int length)])
    else s
  | .error (.rejected r) => s.debugReader (noteText r.reason ++ s.shownSnippet r)
  | .error _ => s

/-- A value that is no text is refused before anything is recorded. -/
def read (s : Session) (given : Value) : Except ReadError Value × Session :=
  match given with
  | .text t =>
    let started := s.debugReader ("Parsing JSON input (" ++ Text.numeral t.length ++ " chars)")
    let result := Document.read t
    (result, started.afterReadings.noteReading t.length started.readingTime result)
  | x => (.error (.notText x.kind), s)

def noteFallback (s : Session) : Except ReadError Value → Session
  | .error (.rejected r) =>
    s.debugReader ("Falling back to default value: " ++ r.message s.limit)
  | _ => s

def readOr (s : Session) (given default : Value) : Except ReadError Value × Session :=
  let (result, t) := s.read given
  (Document.orDefault default result, t.noteFallback result)

theorem read_fst (s : Session) (given : Value) : (s.read given).1 = Document.readGiven given := by
  cases given <;> rfl

theorem readOr_fst (s : Session) (given default : Value) :
    (s.readOr given default).1 = Document.readOr given default := by
  simp [readOr, Document.readOr, read_fst]

end Session

end PlainJson

import PlainJson.Session.Reading
import PlainJson.Session.Summary

/-! The commands of a session, one step each: what a command answers, or why it fails, and the
session after it. A step that fails keeps what was done before the failure. -/
set_option autoImplicit false

namespace PlainJson

inductive Command where
  | set (field : String) (value : Value)
  | configure (choices : Choices)
  | getLogger (name : String)
  | log (name : String) (level : Int) (message : String)
  | perf (name operation : String) (duration : Float) (level : Int)
      (metrics : List (String × Value))
  | summary
  | clock (value : Float)
  | touch (path : String)
  | read (given : Value)
  | readOr (given default : Value)

inductive SessionError where
  | settings (e : SettingsError)
  | config (e : ConfigError)
  | file (e : FileError)
  | noPerformance
  | read (e : ReadError)
  deriving DecidableEq, Repr

inductive Reply where
  | none
  | logger (counting : Bool) (name : String)
  | value (v : Value)

/-- A plain logger cannot report performance. -/
def noPerformanceMessage : String := "'Logger' object has no attribute 'log_performance'"

def loggerClass (counting : Bool) : String := if counting then "RichLogger" else "Logger"

/-- The choices of the short form of configuring, which always configures anew. -/
def initChoices (level : Option String) (useRich : Option Bool) : Choices :=
  { Choices.none with level, useRich, force := true }

namespace Session

abbrev Step := Except SessionError Reply × Session

def ofConfig (x : Except ConfigError Unit × Session) : Step :=
  (match x.1 with
    | .ok () => .ok .none
    | .error e => .error (.config e), x.2)

/-- Goes on with a configured session, and stops if it cannot be configured. -/
def whenConfigured (s : Session) (next : Session → Step) : Step :=
  match s.ensureConfigured with
  | (.error e, t) => (.error (.config e), t)
  | (.ok (), t) => next t

def ofRead (x : Except ReadError Value × Session) : Step :=
  (match x.1 with
    | .ok v => .ok (.value v)
    | .error e => .error (.read e), x.2)

def perform (s : Session) : Command → Step
  | .set field x =>
    match s.settings.assign field x with
    | .ok settings => (.ok .none, { s with settings })
    | .error e => (.error (.settings e), s)
  | .configure c => ofConfig (s.configure c)
  | .getLogger name =>
    s.whenConfigured fun t => (.ok (.logger (!Log.isPlain name) (Log.canonicalName name)), t)
  | .log name level message => s.whenConfigured fun t => (.ok .none, t.issue name level message)
  | .perf name operation duration level metrics =>
    s.whenConfigured fun t =>
      if Log.isPlain name then (.error .noPerformance, t)
      else (.ok .none, t.issue name level (performanceMessage operation duration metrics))
  | .summary => ofConfig s.summary
  | .clock value => (.ok .none, { s with clock := value })
  | .touch path =>
    match s.files.openBelow (FilePath.ofString path) with
    | (.ok (), files) => (.ok .none, { s with files })
    | (.error e, files) => (.error (.file e), { s with files })
  | .read given => ofRead (s.read given)
  | .readOr given default => ofRead (s.readOr given default)

/-- A step shows only its own output. -/
def step (s : Session) (c : Command) : Step := perform { s with output := "" } c

def run (s : Session) : List Command → List Step
  | [] => []
  | c :: cs => s.step c :: run (s.step c).2 cs

end Session

end PlainJson

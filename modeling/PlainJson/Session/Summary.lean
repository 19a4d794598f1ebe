import PlainJson.Session.Configure

/-!
The summary of a session. Its lines are records of a logger of their own, so they count while they
are issued, and each number is the count at the moment when its line is made.
-/
set_option autoImplicit false

namespace PlainJson

namespace Session

def summarize (s : Session) (message : String) : Session :=
  s.issueAt Log.summaryLogger .info message

def reportSeverity (logger : String) (s : Session) (l : Severity) : Session :=
  let n := s.tally.get logger l
  if 0 < n then s.summarize ("    - " ++ l.name ++ ": " ++ Text.numeral n) else s

def reportLogger (s : Session) (logger : String) : Session :=
  let n := s.tally.totalOf logger
  if 0 < n then
    Severity.all.foldl (reportSeverity logger)
      (s.summarize ("Logger '" ++ logger ++ "': " ++ Text.numeral n ++ " messages"))
  else s

def runtimeText (s : Session) : String := Double.fixed (s.clock - s.started) 2

/-- The opening lines, after which the logger of the summary is in the table. -/
def openSummary (s : Session) : Session :=
  (s.summarize "--- Logging Summary ---").summarize
    ("Total Session Runtime: " ++ s.runtimeText ++ " seconds")

def closeSummary (s : Session) (total : Nat) : Session :=
  (s.summarize ("Grand Total Messages: " ++ Text.numeral total)).summarize "-----------------------"

/-- The total is taken before the loggers are listed. -/
def report (s : Session) : Session :=
  let opened := s.openSummary
  ((opened.tally.map Prod.fst).foldl reportLogger opened).closeSummary opened.tally.total

def summary (s : Session) : Except ConfigError Unit × Session :=
  match s.ensureConfigured with
  | (.error e, t) => (.error e, t)
  | (.ok (), t) => (.ok (), t.report)

end Session

end PlainJson

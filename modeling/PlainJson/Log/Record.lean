import PlainJson.Severity
import PlainJson.Text.Digits

/-! Log records, the numbers of their levels and the names of the numbers. -/
set_option autoImplicit false

namespace PlainJson.Log

structure Record where
  logger : String
  level : Int
  message : String
  deriving DecidableEq, Repr

/-- The names under which a level can be asked for. -/
def levelNames : List (String × Int) :=
  [("CRITICAL", 50), ("FATAL", 50), ("ERROR", 40), ("WARN", 30), ("WARNING", 30), ("INFO", 20),
   ("DEBUG", 10), ("NOTSET", 0)]

def levelOfName? (s : String) : Option Int := levelNames.lookup s

/-- A level without a name is called by its number. -/
def levelName (n : Int) : String :=
  match Severity.ofRank? n with
  | some l => l.name
  | none => if n = 0 then "NOTSET" else "Level " ++ Text.signedNumeral n

def rootName : String := "root"

def configLogger : String := "pcjson._core.logging"

def readerLogger : String := "pcjson._core.parsers.json_parser"

def summaryLogger : String := "LoggingSummary"

/-- The root logger answers to its own name and to no name. -/
def canonicalName (name : String) : String := if name = "" then rootName else name

/-- Two loggers only pass records on; all others count them and can report performance. -/
def isPlain (name : String) : Bool :=
  canonicalName name == rootName || name == configLogger

end PlainJson.Log

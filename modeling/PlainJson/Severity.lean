/-! The five severities of log records and their ranks. -/
set_option autoImplicit false

namespace PlainJson

inductive Severity where
  | debug | info | warning | error | critical
  deriving DecidableEq, Repr

namespace Severity

def all : List Severity := [.debug, .info, .warning, .error, .critical]

def name : Severity → String
  | .debug => "DEBUG"
  | .info => "INFO"
  | .warning => "WARNING"
  | .error => "ERROR"
  | .critical => "CRITICAL"

def rank : Severity → Int
  | .debug => 10
  | .info => 20
  | .warning => 30
  | .error => 40
  | .critical => 50

def ofName? (s : String) : Option Severity := all.find? fun l => l.name == s

def ofRank? (n : Int) : Option Severity := all.find? fun l => l.rank == n

theorem mem_all (l : Severity) : l ∈ all := by cases l <;> decide

@[simp] theorem ofName?_name (l : Severity) : ofName? l.name = some l := by cases l <;> decide

@[simp] theorem ofRank?_rank (l : Severity) : ofRank? l.rank = some l := by cases l <;> decide

theorem ofRank?_eq_some_iff {n : Int} {l : Severity} : ofRank? n = some l ↔ n = l.rank := by
  constructor
  · intro h
    have hb := List.find?_some h
    exact (eq_of_beq hb).symm
  · rintro rfl
    simp

end Severity

end PlainJson

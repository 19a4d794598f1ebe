import PlainJson.Severity

/-!
How many records each logger has issued, severity by severity. A logger enters the table with its
first record and keeps its place.
-/
set_option autoImplicit false

namespace PlainJson.Log

structure Counts where
  debug : Nat
  info : Nat
  warning : Nat
  error : Nat
  critical : Nat
  deriving DecidableEq, Repr

namespace Counts

def zero : Counts := ⟨0, 0, 0, 0, 0⟩

def get (c : Counts) : Severity → Nat
  | .debug => c.debug
  | .info => c.info
  | .warning => c.warning
  | .error => c.error
  | .critical => c.critical

def bump (c : Counts) : Severity → Counts
  | .debug => { c with debug := c.debug + 1 }
  | .info => { c with info := c.info + 1 }
  | .warning => { c with warning := c.warning + 1 }
  | .error => { c with error := c.error + 1 }
  | .critical => { c with critical := c.critical + 1 }

def total (c : Counts) : Nat := c.debug + c.info + c.warning + c.error + c.critical

@[simp] theorem get_zero (l : Severity) : zero.get l = 0 := by cases l <;> rfl

@[simp] theorem get_bump (c : Counts) (l m : Severity) :
    (c.bump l).get m = c.get m + (if m = l then 1 else 0) := by
  cases l <;> cases m <;> simp [bump, get]

end Counts

abbrev Tally := List (String × Counts)

namespace Tally

/-- One more record of this logger; a level without a name only makes the logger known. -/
def note (logger : String) (severity : Option Severity) : Tally → Tally
  | [] => [(logger, severity.elim .zero Counts.zero.bump)]
  | e :: rest =>
    if e.1 = logger then (e.1, severity.elim e.2 e.2.bump) :: rest
    else e :: note logger severity rest

def counts? (t : Tally) (logger : String) : Option Counts := t.lookup logger

def get (t : Tally) (logger : String) (l : Severity) : Nat :=
  match t.counts? logger with
  | some c => c.get l
  | none => 0

def totalOf (t : Tally) (logger : String) : Nat :=
  match t.counts? logger with
  | some c => c.total
  | none => 0

def total (t : Tally) : Nat := t.foldr (fun e n => e.2.total + n) 0

theorem get_note_self (t : Tally) (logger : String) (l m : Severity) :
    (t.note logger (some l)).get logger m = t.get logger m + (if m = l then 1 else 0) := by
  induction t with
  | nil => simp [note, get, counts?]
  | cons e rest ih =>
    obtain ⟨name, c⟩ := e
    by_cases h : name = logger
    · simp [note, get, counts?, h]
    · have hb : (logger == name) = false := by simpa using fun hn => h hn.symm
      simpa [note, get, counts?, List.lookup_cons, h, hb] using ih

theorem counts?_note_ne {logger other : String} (h : other ≠ logger) (t : Tally)
    (severity : Option Severity) : (t.note logger severity).counts? other = t.counts? other := by
  have hb : (other == logger) = false := by simpa using h
  induction t with
  | nil => simp [note, counts?, List.lookup_cons, hb]
  | cons e rest ih =>
    obtain ⟨name, c⟩ := e
    by_cases hn : name = logger
    · subst hn
      simp [note, counts?, List.lookup_cons, hb]
    · simp only [counts?] at ih
      simp [note, counts?, List.lookup_cons, hn, ih]

end Tally

end PlainJson.Log

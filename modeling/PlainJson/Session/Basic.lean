import PlainJson.FileTree
import PlainJson.Log.Layout
import PlainJson.Log.Tally
import PlainJson.Settings.Basic

/-!
A session: the settings, how logging is set up, what has been counted and written, and the clocks.
A record passes if its level is above zero and at least that of the root. The table then counts it,
whether or not a handler is there to write it.
-/
set_option autoImplicit false

namespace PlainJson

inductive Handler where
  | rich
  | console (layout : String)
  | file (path : FilePath) (layout : String)
  deriving DecidableEq, Repr

def Handler.className : Handler → String
  | .rich => "RichHandler"
  | .console _ => "StreamHandler"
  | .file _ _ => "FileHandler"

structure Session where
  settings : Settings
  configured : Bool
  started : Float
  level : Int
  handlers : List Handler
  tally : Log.Tally
  clock : Float
  tick : Float
  ticks : Nat
  files : FileTree
  output : String

namespace Session

/-- Nothing is configured yet, and the root lets warnings through. -/
def fresh (tick : Float) : Session where
  settings := .default
  configured := false
  started := 0
  level := Severity.warning.rank
  handlers := []
  tally := []
  clock := 0
  tick := tick
  ticks := 0
  files := .empty
  output := ""

def enabled (s : Session) (level : Int) : Bool := decide (0 < level) && decide (s.level ≤ level)

def endLine (line : String) : String := line ++ "\n"

/-- What the rich handler shows is not kept. -/
def writeTo (r : Log.Record) (s : Session) : Handler → Session
  | .rich => s
  | .console layout =>
    match Log.Layout.render layout r with
    | some line => { s with output := s.output ++ endLine line }
    | none => s
  | .file path layout =>
    match Log.Layout.render layout r with
    | some line => { s with files := s.files.append path (endLine line) }
    | none => s

/-- With no handler at all, warnings and worse still show their bare message. -/
def deliver (s : Session) (r : Log.Record) : Session :=
  match s.handlers with
  | [] =>
    if Severity.warning.rank ≤ r.level then { s with output := s.output ++ endLine r.message }
    else s
  | hs => hs.foldl (writeTo r) s

def count (s : Session) (logger : String) (level : Int) : Session :=
  if Log.isPlain logger then s
  else { s with tally := s.tally.note logger (Severity.ofRank? level) }

def issue (s : Session) (logger : String) (level : Int) (message : String) : Session :=
  if s.enabled level then
    (s.count logger level).deliver ⟨Log.canonicalName logger, level, message⟩
  else s

def issueAt (s : Session) (logger : String) (l : Severity) (message : String) : Session :=
  s.issue logger l.rank message

theorem writeTo_tally (r : Log.Record) (s : Session) (h : Handler) :
    (s.writeTo r h).tally = s.tally := by
  cases h <;> simp only [writeTo] <;> split <;> rfl

theorem foldl_writeTo_tally (r : Log.Record) (hs : List Handler) (s : Session) :
    (hs.foldl (writeTo r) s).tally = s.tally := by
  induction hs generalizing s with
  | nil => rfl
  | cons h hs ih => rw [List.foldl_cons, ih, writeTo_tally]

theorem deliver_tally (s : Session) (r : Log.Record) : (s.deliver r).tally = s.tally := by
  unfold deliver
  split
  · split <;> rfl
  · exact foldl_writeTo_tally _ _ _

end Session

end PlainJson

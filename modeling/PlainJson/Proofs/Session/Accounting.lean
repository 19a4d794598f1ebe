import PlainJson.Proofs.Session.Journal
import PlainJson.Proofs.Session.Reading

/-!
What a reading leaves in the counts. All that it issues are records of severity debug, through one
logger. How many they are depends on how the reading ends, and on the settings if it succeeds; and
they are counted or passed over all together.
-/
set_option autoImplicit false

namespace PlainJson

theorem Document.finish_ne_notText (x : Outcome Value) (kind : String) :
    finish x ≠ .error (.notText kind) := by
  cases x with
  | failure => exact nofun
  | success v a =>
    simp only [finish]
    split <;> exact nofun

theorem Document.read_ne_notText (text kind : String) : read text ≠ .error (.notText kind) := by
  unfold read
  split
  · exact nofun
  · exact finish_ne_notText _ kind

namespace Session

open Log (Attempt)

/-- How many records a reading issues that ends in this way. -/
def recordsOf (debug : Bool) : Except ReadError Value → Nat
  | .ok _ => if debug then 2 else 1
  | .error (.rejected _) => 2
  | .error (.fault _) => 1
  | .error (.notText _) => 0

/-- One more record is issued when a value stands in for a text that is refused. -/
def recordsOfFallback : Except ReadError Value → Nat
  | .error (.rejected _) => 1
  | .ok _ | .error (.fault _) | .error (.notText _) => 0

theorem readingAttempts_eq (s : Session) (given : Value) :
    s.readingAttempts given =
      List.replicate (recordsOf s.settings.debug (Document.readGiven given)) s.readerDebug := by
  cases given with
  | text text =>
    have hn := Document.read_ne_notText text
    simp only [readingAttempts, Document.readGiven]
    generalize Document.read text = x at hn
    rcases x with (⟨kind⟩ | _ | _) | _
    · exact absurd rfl (hn kind)
    · rfl
    · rfl
    · simp only [endingAttempts, recordsOf]
      split <;> rfl
  | null | bool | int | double | list | tuple | dict => rfl

theorem fallbackAttempts_eq (s : Session) (x : Except ReadError Value) :
    s.fallbackAttempts x = List.replicate (recordsOfFallback x) s.readerDebug := by
  rcases x with (_ | _ | _) | _ <;> rfl

/-- A command that is answered in this way has left the session set up as it was, and the counts of
all loggers but one. Of that logger no count has changed if the root does not let debug through, and
otherwise only the count of debug, which has grown by `n`. -/
structure Accounts (s : Session) (c : Command) (answer : Except ReadError Value) (n : Nat) :
    Prop where
  answer : (s.step c).1 = answered answer
  setup : (s.step c).2.setup = s.setup
  others : ∀ name, name ≠ Log.readerLogger →
    (s.step c).2.tally.counts? name = s.tally.counts? name
  strict : Severity.debug.rank < s.level →
    (s.step c).2.tally.counts? Log.readerLogger = s.tally.counts? Log.readerLogger
  debug : s.level ≤ Severity.debug.rank →
    (s.step c).2.tally.get Log.readerLogger .debug = s.tally.get Log.readerLogger .debug + n
  severities : ∀ l, l ≠ .debug →
    (s.step c).2.tally.get Log.readerLogger l = s.tally.get Log.readerLogger l

theorem counted_readerDebug (s : Session) :
    s.readerDebug.counted = decide (s.level ≤ Severity.debug.rank) := by
  have hp : Log.isPlain Log.readerLogger = false := by decide
  exact Attempt.counted_of_not_plain (a := s.readerDebug) hp

theorem isAt_readerDebug (s : Session) (l : Severity) :
    s.readerDebug.isAt Log.readerLogger l = decide (l = .debug) := by
  cases l <;> simp [readerDebug, attempt, Attempt.isAt, Severity.rank]

/-- It is enough to know the answer and how many records are asked for. -/
theorem accounts_of_attempts {s : Session} {c : Command} {x : Except ReadError Value} {n : Nat}
    (hc : c.reading? = some x) (ha : s.attempts c = List.replicate n s.readerDebug) :
    s.Accounts c x n := by
  have ht : (s.step c).2.tally = s.tally.noteAll (List.replicate n s.readerDebug) := by
    rw [← ha]
    exact step_tally s c
  obtain ⟨hx, hs⟩ := step_reading hc s
  refine ⟨hx, hs, fun name hname => ?_, fun hl => ?_, fun hl => ?_, fun l hl => ?_⟩
  · rw [ht, Log.Tally.counts?_noteAll_replicate (a := s.readerDebug) hname]
  · have hc : s.readerDebug.counted = false := by
      rw [counted_readerDebug]
      simpa using hl
    rw [ht, Log.Tally.noteAll_replicate_of_not_counted hc]
  · rw [ht, Log.Tally.get_noteAll, List.countP_replicate, counted_readerDebug, isAt_readerDebug]
    simp [hl]
  · rw [ht, Log.Tally.get_noteAll, List.countP_replicate, isAt_readerDebug]
    simp [hl]

/-- What a reading does to the session, with a value to stand in for a text that is refused or
without: nothing, but that one logger has more records of severity debug. -/
theorem reading_accounts (s : Session) (given default : Value) :
    s.Accounts (.read given) (Document.readGiven given)
        (recordsOf s.settings.debug (Document.readGiven given)) ∧
      s.Accounts (.readOr given default) (Document.readOr given default)
        (recordsOf s.settings.debug (Document.readGiven given) +
          recordsOfFallback (Document.readGiven given)) := by
  refine ⟨accounts_of_attempts rfl (readingAttempts_eq s given), accounts_of_attempts rfl ?_⟩
  rw [← List.replicate_append_replicate, ← readingAttempts_eq, ← fallbackAttempts_eq]
  rfl

/-- A text that is refused in a session where the root lets everything through. -/
theorem reading_accounts_trailing :
    let s := (fresh 0).after [.configure ⟨some "NOTSET", some false, none, none, true⟩]
    let c := Command.readOr (.text "1 2") .null
    (s.step c).1 = .ok (.value .null) ∧ (s.step c).2.setup = s.setup ∧
      (s.step c).2.tally.get Log.readerLogger .debug = 3 := by
  have h := (reading_accounts
    ((fresh 0).after [.configure ⟨some "NOTSET", some false, none, none, true⟩])
    (.text "1 2") .null).2
  have hx : recordsOf false (Document.readGiven (.text "1 2")) +
      recordsOfFallback (Document.readGiven (.text "1 2")) = 3 := rfl
  exact ⟨h.answer, h.setup, (h.debug (by decide)).trans hx⟩

end Session

end PlainJson

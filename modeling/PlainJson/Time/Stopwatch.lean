import PlainJson.Number.Dyadic
import PlainJson.Time.Calendar

/-!
A stopwatch. It runs from the moment it is made; starting it again changes only where the next stop
measures from, so the last measured time stays readable until then.
-/
set_option autoImplicit false

namespace PlainJson

/-- What the two clocks show at one moment: seconds to measure with, and seconds of the calendar. -/
structure Reading where
  perf : Float
  wall : Int

structure Stopwatch where
  started : Reading
  elapsed : Option Float
  stopped : Option Int

namespace Stopwatch

def make (r : Reading) : Stopwatch := ⟨r, none, none⟩

def start (w : Stopwatch) (r : Reading) : Stopwatch := { w with started := r }

def stop (w : Stopwatch) (r : Reading) : Stopwatch :=
  { w with elapsed := some (r.perf - w.started.perf), stopped := some r.wall }

/-- The measured time to the millisecond. -/
def elapsedTime (w : Stopwatch) : Option Float := w.elapsed.map fun x => Double.roundTo x 3

def startTimestamp (w : Stopwatch) : String := Calendar.timestamp w.started.wall

def endTimestamp (w : Stopwatch) : Option String := w.stopped.map Calendar.timestamp

/-- What comes back from something done with a stopwatch: the stopwatch itself, nothing, or an error
that was raised on the way. -/
inductive Answer where
  | none | itself | nothing | propagated
  deriving DecidableEq, Repr

/-- Whether a block that is left with this answer keeps its error to itself. -/
def Answer.swallows : Answer → Bool
  | .itself => true
  | .none | .nothing | .propagated => false

end Stopwatch

/-- A stopwatch in use, with the number of readings taken from either clock so far. -/
structure Timed where
  watch : Stopwatch
  perfs : Nat
  walls : Nat

namespace Timed

open Stopwatch (Answer)

variable (clock : Nat → Reading)

/-- The next reading of either clock. -/
def reading (t : Timed) : Reading := ⟨(clock t.perfs).perf, (clock t.walls).wall⟩

def make : Timed := ⟨.make (clock 0), 1, 1⟩

def start (t : Timed) : Timed := ⟨t.watch.start (t.reading clock), t.perfs + 1, t.walls + 1⟩

def stop (t : Timed) : Timed := ⟨t.watch.stop (t.reading clock), t.perfs + 1, t.walls + 1⟩

def enter (t : Timed) : Timed × Answer := (t.start clock, .itself)

def leave (t : Timed) : Timed × Answer := (t.stop clock, .nothing)

end Timed

namespace Stopwatch

/-- What is done with a stopwatch, one thing after another. A block is entered, its body is run, and
then it is left, whether or not the body raised an error. An error ends all that it is raised in, up
to where it is caught. -/
inductive Use (ε : Type) where
  | done
  | start
  | stop
  | enter
  | exit
  | fail (error : ε)
  | block (body : Use ε)
  | caught (body : Use ε)
  | next (first second : Use ε)
  deriving DecidableEq, Repr

/-- The stopwatch afterwards, and the last answer or the error that was not caught. -/
def Use.run {ε : Type} (clock : Nat → Reading) : Use ε → Timed → Timed × Except ε Answer
  | .done, t => (t, .ok .none)
  | .start, t => (t.start clock, .ok .none)
  | .stop, t => (t.stop clock, .ok .none)
  | .enter, t => ((t.enter clock).1, .ok (t.enter clock).2)
  | .exit, t => ((t.leave clock).1, .ok (t.leave clock).2)
  | .fail e, t => (t, .error e)
  | .block body, t =>
    let inside := body.run clock (t.enter clock).1
    let outside := inside.1.leave clock
    (outside.1, if outside.2.swallows then .ok .none else inside.2)
  | .caught body, t =>
    let inside := body.run clock t
    match inside.2 with
    | .ok a => (inside.1, .ok a)
    | .error _ => (inside.1, .ok .none)
  | .next first second, t =>
    let between := first.run clock t
    match between.2 with
    | .ok _ => second.run clock between.1
    | .error e => (between.1, .error e)

/-- The single things that can be done with a stopwatch, the last of them a block whose body does
nothing but raise an error. -/
inductive Action where
  | start | stop | enter | exit | raise
  deriving DecidableEq, Repr

def Action.use : Action → Use Unit
  | .start => .start
  | .stop => .stop
  | .enter => .enter
  | .exit => .exit
  | .raise => .block (.fail ())

def Answer.ofResult : Except Unit Answer → Answer
  | .ok a => a
  | .error () => .propagated

/-- The stopwatch after each of the actions, and what each answered. -/
def historyFrom (clock : Nat → Reading) : Timed → List Action → List (Stopwatch × Answer)
  | _, [] => []
  | t, a :: as =>
    let u := a.use.run clock t
    (u.1.watch, .ofResult u.2) :: historyFrom clock u.1 as

/-- Readings are taken from number `k` on. -/
def history (clock : Nat → Reading) (k : Nat) (w : Stopwatch) (as : List Action) :
    List (Stopwatch × Answer) :=
  historyFrom clock ⟨w, k, k⟩ as

theorem elapsed_stop (w : Stopwatch) (r : Reading) :
    (w.stop r).elapsed = some (r.perf - w.started.perf) := rfl

end Stopwatch

end PlainJson

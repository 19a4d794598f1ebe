import PlainJson.View

/-!
A run is what applying a parser does: the events it records, in order, and how it ends. A run that
ends by a fault keeps the events recorded up to there, and nothing that would have come later
happens.
-/
set_option autoImplicit false

namespace PlainJson

/-- What was wanted of a value that has not got it. -/
inductive Misuse where
  | noSize (kind : String)
  | noItems (kind : String)
  | outside (kind : String)
  | noKey (key : Int)
  | notJoined
  | notText (place : Nat) (kind : String)
  | notIterable (kind : String)
  | noPair (place : Nat)
  | wrongPair (place size : Nat)
  | noKeyOf (kind : String)
  deriving DecidableEq, Repr

inductive Fault where
  | view : ViewFault → Fault
  | value : Misuse → Fault
  | tooManyDigits (count : Nat)
  | unknownRule (name : String)
  | endless
  deriving DecidableEq, Repr

/-- The longest numeral that is read. -/
def maxDigits : Nat := 4300

def ViewFault.message : ViewFault → String
  | .negativeLength => "__len__() should return >= 0"
  | .outsideText => "string index out of range"

def Misuse.message : Misuse → String
  | .noSize kind => "object of type '" ++ kind ++ "' has no len()"
  | .noItems kind => "'" ++ kind ++ "' object is not subscriptable"
  | .outside kind => kind ++ " index out of range"
  | .noKey key => Text.signedNumeral key
  | .notJoined => "can only join an iterable"
  | .notText place kind =>
    "sequence item " ++ Text.numeral place ++ ": expected str instance, " ++ kind ++ " found"
  | .notIterable kind => "'" ++ kind ++ "' object is not iterable"
  | .noPair place =>
    "cannot convert dictionary update sequence element #" ++ Text.numeral place ++ " to a sequence"
  | .wrongPair place size =>
    "dictionary update sequence element #" ++ Text.numeral place ++ " has length " ++
      Text.numeral size ++ "; 2 is required"
  | .noKeyOf kind => "unhashable type: '" ++ kind ++ "'"

def Fault.message : Fault → String
  | .view f => f.message
  | .value m => m.message
  | .tooManyDigits n =>
    "Exceeds the limit (" ++ Text.numeral maxDigits ++
      " digits) for integer string conversion: value has " ++ Text.numeral n ++
      " digits; use sys.set_int_max_str_digits() to increase the limit"
  | .unknownRule name => Text.quoted name
  | .endless => "the parser does not come to an end"

/-- What an observed parser or a deferred alternative records. -/
inductive Event where
  | call (label : String) (pos : Int)
  | ok (label : String) (pos : Int)
  | fail (label : String) (pos : Int)
  | built (label : String)
  deriving DecidableEq, Repr

structure Run (α : Type) where
  events : List Event
  ending : Except Fault α

namespace Run

variable {α β γ : Type}

@[ext] theorem ext {x y : Run α} (he : x.events = y.events) (hd : x.ending = y.ending) : x = y := by
  cases x; cases y; simp_all

def done (a : α) : Run α := ⟨[], .ok a⟩

def fault (f : Fault) : Run α := ⟨[], .error f⟩

def record (e : Event) : Run Unit := ⟨[e], .ok ()⟩

def ofExcept (x : Except Fault α) : Run α := ⟨[], x⟩

/-- The same run after the events `es`. -/
def after (es : List Event) (x : Run α) : Run α := ⟨es ++ x.events, x.ending⟩

def andThen (x : Run α) (f : α → Run β) : Run β :=
  match x.ending with
  | .error e => ⟨x.events, .error e⟩
  | .ok a => (f a).after x.events

instance : Monad Run where
  pure := done
  bind := andThen

@[simp] theorem after_nil (x : Run α) : x.after [] = x := rfl

@[simp] theorem after_after (es fs : List Event) (x : Run α) :
    (x.after es).after fs = x.after (fs ++ es) := by
  simp [after]

@[simp] theorem done_andThen (a : α) (f : α → Run β) : (done a).andThen f = f a := rfl

@[simp] theorem andThen_done (x : Run α) : x.andThen done = x := by
  cases x with
  | mk es e => cases e <;> simp [andThen, done, after]

theorem andThen_assoc (x : Run α) (f : α → Run β) (g : β → Run γ) :
    (x.andThen f).andThen g = x.andThen fun a => (f a).andThen g := by
  cases x with
  | mk es e =>
    cases e with
    | error e => rfl
    | ok a => simp [andThen, after]; cases (f a).ending <;> simp

end Run

end PlainJson

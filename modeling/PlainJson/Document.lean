import PlainJson.Grammar
import PlainJson.Text.Snippet

/-!
Whole documents: a text is one value and nothing else. What is refused says why and keeps all of the
text from the place where reading stopped; only its message is cut short.
-/
set_option autoImplicit false

namespace PlainJson

inductive Reason where
  | incomplete
  | unmatched
  | trailing
  deriving DecidableEq, Repr

namespace Reason

def text : Reason → String
  | .incomplete => "Could not parse JSON"
  | .unmatched => "No JSON value matched"
  | .trailing => "Unexpected trailing input"

/-- The reason itself and the more general ones. -/
def lineage : Reason → List Reason
  | .incomplete => [.incomplete]
  | .unmatched => [.unmatched, .incomplete]
  | .trailing => [.trailing, .incomplete]

end Reason

structure Rejection where
  reason : Reason
  remaining : List Char
  deriving DecidableEq, Repr

def Rejection.message (r : Rejection) (limit : Int) : String :=
  r.reason.text ++ " at: " ++ String.ofList (Text.quote (Text.snippet limit r.remaining))

/-- A limit of zero counts as none given. -/
def snippetLimit (given : Option Int) (setting : Int) : Int :=
  match given with
  | some n => if n = 0 then setting else n
  | none => setting

inductive ReadError where
  | notText (kind : String)
  | rejected (r : Rejection)
  | fault (f : Fault)
  deriving DecidableEq, Repr

def ReadError.message (limit : Int) : ReadError → String
  | .notText kind => "parse_json expects str, got " ++ kind
  | .rejected r => r.message limit
  | .fault f => f.message

namespace Document

/-- A value must leave nothing behind. -/
def finish : Outcome Value → Except ReadError Value
  | .failure v => .error (.rejected ⟨.unmatched, v.rest⟩)
  | .success v a =>
    match v.length with
    | .error f => .error (.fault (.view f))
    | .ok 0 => .ok a
    | .ok (_ + 1) => .error (.rejected ⟨.trailing, v.rest⟩)

def read (s : String) : Except ReadError Value :=
  match (Grammar.value.runOn s).ending with
  | .error f => .error (.fault f)
  | .ok o => finish o

def readGiven : Value → Except ReadError Value
  | .text s => read s
  | x => .error (.notText x.kind)

/-- The default stands in for a text that is refused, and for nothing else. -/
def orDefault (default : Value) : Except ReadError Value → Except ReadError Value
  | .error (.rejected _) => .ok default
  | r => r

def readOr (given default : Value) : Except ReadError Value := orDefault default (readGiven given)

end Document

end PlainJson

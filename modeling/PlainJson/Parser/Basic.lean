import PlainJson.Parser.Run
import PlainJson.Text.Blank

/-!
Parsers and the ways to combine them. A parser takes a view and succeeds with a value and the view
that remains, or fails at a view. Failing is an ordinary outcome, so a choice can try something else
from the view it was given; a fault ends the whole run.
-/
set_option autoImplicit false

namespace PlainJson

inductive Outcome (α : Type) where
  | success (remaining : View) (value : α)
  | failure (remaining : View)
  deriving DecidableEq, Repr

namespace Outcome

variable {α β : Type}

def remaining : Outcome α → View
  | .success v _ => v
  | .failure v => v

def map (f : α → β) : Outcome α → Outcome β
  | .success v a => .success v (f a)
  | .failure v => .failure v

end Outcome

/-- How a parser was put together, as far as its name tells. A choice does not show its
alternatives, which are built only when it runs. -/
inductive Label where
  | literal (expected : String)
  | pair (first second : Label)
  | filtered (inner : Label)
  | many (inner : Label)
  | anyChar
  | either
  | named (name : String)
  deriving DecidableEq, Repr

def Label.shown : Label → String
  | .literal s => "literal(" ++ Text.quoted s ++ ")"
  | .pair a b => "pair(" ++ a.shown ++ ", " ++ b.shown ++ ")"
  | .filtered a => "pred(" ++ a.shown ++ ")"
  | .many a => "zero_or_more(" ++ a.shown ++ ")"
  | .anyChar => "any_char"
  | .either => "either"
  | .named s => s

structure Parser (α : Type) where
  label : Label
  run : View → Run (Outcome α)

namespace Parser

variable {α β : Type}

def name (p : Parser α) : String := p.label.shown

def shown (p : Parser α) : String := "<Parser " ++ p.name ++ ">"

def runOn (p : Parser α) (s : String) : Run (Outcome α) := p.run (View.ofString s 0)

def literal (expected : String) : Parser Unit where
  label := .literal expected
  run v :=
    if v.startsWith expected.toList then
      .done (.success (v.advance expected.toList.length) ())
    else .done (.failure v)

/-- The first failure is the failure of the pair, and then `q` is not tried. -/
def pair (p : Parser α) (q : Parser β) : Parser (α × β) where
  label := .pair p.label q.label
  run v := (p.run v).andThen fun
    | .failure w => .done (.failure w)
    | .success w a => (q.run w).andThen fun
      | .failure u => .done (.failure u)
      | .success u b => .done (.success u (a, b))

/-- Turns the value into another, which may end the run by a fault. -/
def convert (p : Parser α) (f : α → Except Fault β) : Parser β where
  label := p.label
  run v := (p.run v).andThen fun
    | .failure w => .done (.failure w)
    | .success w a => (Run.ofExcept (f a)).andThen fun b => .done (.success w b)

def map (p : Parser α) (f : α → β) : Parser β where
  label := p.label
  run v := (p.run v).andThen fun o => .done (o.map f)

def left (p : Parser α) (q : Parser β) : Parser α := (p.pair q).map Prod.fst

def right (p : Parser α) (q : Parser β) : Parser β := (p.pair q).map Prod.snd

def wrap (before : String) (p : Parser α) (after : String) : Parser α :=
  (literal before).right (p.left (literal after))

/-- A value that is refused becomes a failure where the parser began. -/
def filter (p : Parser α) (f : α → Bool) : Parser α where
  label := .filtered p.label
  run v := (p.run v).andThen fun
    | .failure w => .done (.failure w)
    | .success w a => .done (if f a then .success w a else .failure v)

def anyChar : Parser Char where
  label := .anyChar
  run v :=
    match v.length with
    | .error f => .fault (.view f)
    | .ok 0 => .done (.failure v)
    | .ok (_ + 1) =>
      match v.peek with
      | .error f => .fault (.view f)
      | .ok c => .done (.success (v.advance 1) c)

/-- Repeats `p` until it fails, at most `steps` times. The events and the values, last first, of the
repetitions before are carried along. -/
def repeatFrom (p : Parser α) : Nat → List Event → List α → View → Run (Outcome (List α))
  | 0, es, _, _ => ⟨es, .error .endless⟩
  | steps + 1, es, as, v =>
    match p.run v with
    | ⟨fs, .error f⟩ => ⟨es ++ fs, .error f⟩
    | ⟨fs, .ok (.failure _)⟩ => ⟨es ++ fs, .ok (.success v as.reverse)⟩
    | ⟨fs, .ok (.success w a)⟩ => repeatFrom p steps (es ++ fs) (a :: as) w

/-- As often as `p` succeeds; the failure that ends the repetition is forgotten. A parser that comes
back to a view where it has been would go on for ever, so the steps can be counted beforehand. -/
def many (p : Parser α) : Parser (List α) where
  label := .many p.label
  run v := repeatFrom p v.reach [] [] v

def cons (x : α × List α) : List α := x.1 :: x.2

def many1 (p : Parser α) : Parser (List α) := (p.pair p.many).map cons

def blank : Parser Char := anyChar.filter Text.isBlank

def wrapBlank (p : Parser α) : Parser α := (many blank).right (p.left (many blank))

/-- One or more, with `sep` between them. A separator that nothing follows is left alone. -/
def separateBy (p : Parser α) (sep : String) : Parser (List α) :=
  (p.pair (many ((literal sep).right p))).map cons

/-- Tries the alternatives in order on the view `v`, and builds each only when its turn comes. -/
def firstOf (v : View) : List (Unit → Run (Parser α)) → Run (Outcome α)
  | [] => .done (.failure v)
  | build :: rest => (build ()).andThen fun p => (p.run v).andThen fun
    | .success w a => .done (.success w a)
    | .failure _ => firstOf v rest

/-- Building an alternative is a run of its own and may record events. -/
def eitherOf (alternatives : List (Unit → Run (Parser α))) : Parser α where
  label := .either
  run v := firstOf v alternatives

def either (alternatives : List (Unit → Parser α)) : Parser α :=
  eitherOf (alternatives.map fun build _ => .done (build ()))

end Parser

end PlainJson

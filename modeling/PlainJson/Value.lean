import PlainJson.Entries
import PlainJson.Number.Shortest
import PlainJson.Text.Quoted

/-!
Values. Reading a document gives `null`, truth values, natural numbers, texts, lists and tables;
tuples, negative numbers and doubles come only from outside. The entries of a table are kept in the
order of their keys, one for each key, so that equal tables are equal lists.
-/
set_option autoImplicit false

namespace PlainJson

inductive Value where
  | null
  | bool (b : Bool)
  | int (i : Int)
  | double (bits : UInt64)
  | text (s : String)
  | list (items : List Value)
  | tuple (items : List Value)
  | dict (entries : List (String × Value))
  deriving Repr, Inhabited

namespace Value

/-- The name of the kind of a value in messages. -/
def kind : Value → String
  | .null => "NoneType"
  | .bool _ => "bool"
  | .int _ => "int"
  | .double _ => "float"
  | .text _ => "str"
  | .list _ => "list"
  | .tuple _ => "tuple"
  | .dict _ => "dict"

/-- The number that a truth value, an integer or a whole double equals. -/
def whole? : Value → Option Int
  | .bool b => some (if b then 1 else 0)
  | .int i => some i
  | .double bits => (Dyadic.ofBits bits).bind Dyadic.toInt?
  | _ => none

/-- Equality of scalars. Numbers are equal across kinds, and truth values count as one and zero. -/
def sameScalar (x y : Value) : Bool :=
  match x, y with
  | .null, .null => true
  | .text s, .text t => s == t
  | .double a, .double b => Float.ofBits a == Float.ofBits b
  | _, _ =>
    match x.whole?, y.whole? with
    | some i, some j => i == j
    | _, _ => false

mutual

/-- Equality of values that takes `true` for one and `false` for zero, at any depth. -/
def same : Value → Value → Bool
  | .list xs, .list ys => sameItems xs ys
  | .tuple xs, .tuple ys => sameItems xs ys
  | .dict xs, .dict ys => sameEntries xs ys
  | x, y => sameScalar x y

def sameItems : List Value → List Value → Bool
  | [], [] => true
  | x :: xs, y :: ys => same x y && sameItems xs ys
  | _, _ => false

def sameEntries : List (String × Value) → List (String × Value) → Bool
  | [], [] => true
  | (k, x) :: xs, (l, y) :: ys => k == l && same x y && sameEntries xs ys
  | _, _ => false

end

def scalarText : Value → String
  | .null => "None"
  | .bool true => "True"
  | .bool false => "False"
  | .int i => Text.signedNumeral i
  | .double bits => Double.shortest (Float.ofBits bits)
  | .text s => Text.quoted s
  | _ => ""

def commaSeparated : List String → String
  | [] => ""
  | [s] => s
  | s :: rest => s ++ ", " ++ commaSeparated rest

mutual

/-- One line that shows a value; the texts in it are quoted. -/
def shown : Value → String
  | .list xs => "[" ++ commaSeparated (shownItems xs) ++ "]"
  | .tuple xs => "(" ++ commaSeparated (shownItems xs) ++ (if xs.length = 1 then ",)" else ")")
  | .dict es => "\x7b" ++ commaSeparated (shownEntries es) ++ "\x7d"
  | x => scalarText x

def shownItems : List Value → List String
  | [] => []
  | x :: xs => shown x :: shownItems xs

def shownEntries : List (String × Value) → List String
  | [] => []
  | (k, x) :: xs => (Text.quoted k ++ ": " ++ shown x) :: shownEntries xs

end

/-- A text by itself is printed without quotes. -/
def printed : Value → String
  | .text s => s
  | x => shown x

end Value

end PlainJson

import PlainJson.Parser.Basic
import PlainJson.Value

/-!
The grammar of documents: keywords, texts between double quotes, natural numbers, and arrays and
objects that are never empty, with white space allowed around every value and every key. Nothing is
escaped in a text, so the next double quote ends it. A value inside another starts further to the
right, hence the depth of values is bounded by the characters ahead.
-/
set_option autoImplicit false

namespace PlainJson

inductive Kind where
  | null | bool | string | number | array | object
  deriving DecidableEq, Repr

/-- In which order the kinds of values, and the two truth values, are tried. -/
structure Order where
  kinds : List Kind
  truths : List Bool
  deriving DecidableEq, Repr

def Order.standard : Order where
  kinds := [.null, .bool, .string, .number, .array, .object]
  truths := [true, false]

namespace Grammar

open PlainJson.Parser

def null : Parser Value := (literal "null").map fun _ => .null

def truth (b : Bool) : Parser Value :=
  (literal (if b then "true" else "false")).map fun _ => .bool b

def bool (order : Order) : Parser Value := either (order.truths.map fun b _ => truth b)

def string : Parser String :=
  wrap "\"" ((many (anyChar.filter fun c => c != '"')).map String.ofList) "\""

/-- Leading zeros count as digits. -/
def readNumeral (digits : List Char) : Except Fault Nat :=
  if maxDigits < digits.length then .error (.tooManyDigits digits.length)
  else .ok (Text.decimalValue digits)

def number : Parser Nat := (many1 (anyChar.filter Char.isDigit)).convert readNumeral

def array (value : Parser Value) : Parser (List Value) := wrap "[" (separateBy value ",") "]"

def member (value : Parser Value) : Parser (String × Value) :=
  ((wrapBlank string).left (literal ":")).pair value

def object (value : Parser Value) : Parser (List (String × Value)) :=
  wrap "\x7b" ((separateBy (member value) ",").map entriesOf) "\x7d"

/-- The rule of one kind, where `value` reads the values inside. -/
def rule (order : Order) (value : Parser Value) : Kind → Parser Value
  | .null => null
  | .bool => bool order
  | .string => string.map .text
  | .number => number.map fun n => .int n
  | .array => (array value).map .list
  | .object => (object value).map .dict

/-- Values nested at most `depth` deep. -/
def valueAt (order : Order) : Nat → Parser Value
  | 0 => wrapBlank ⟨.either, fun _ => .fault .endless⟩
  | depth + 1 => wrapBlank (either (order.kinds.map fun k _ => rule order (valueAt order depth) k))

/-- Values nested as deep as the view has room for. -/
def valueIn (order : Order) : Parser Value where
  label := (valueAt order 0).label
  run v := (valueAt order (v.room + 1)).run v

def value : Parser Value := valueIn .standard

def ofKind (k : Kind) : Parser Value := rule .standard value k

theorem readNumeral_eq_ok {digits : List Char} {n : Nat} :
    readNumeral digits = .ok n ↔ digits.length ≤ maxDigits ∧ Text.decimalValue digits = n := by
  unfold readNumeral
  split
  · simp; omega
  · rename_i h
    simp only [Except.ok.injEq]
    exact ⟨fun he => ⟨by omega, he⟩, fun he => he.2⟩

end Grammar

end PlainJson

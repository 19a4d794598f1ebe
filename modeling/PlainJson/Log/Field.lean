import PlainJson.Number.Significant
import PlainJson.Text.Quoted

/-!
The fields of a layout one by one: what a field shows, and how its flags, its width, its precision
and its conversion letter shape the text. A field that its conversion cannot show has no text.
-/
set_option autoImplicit false

namespace PlainJson.Log

/-- What stands between the name of a field and its end. A width of none is no width. -/
structure FieldSpec where
  flags : List Char
  width : Nat
  precision : Option Nat
  conversion : Char
  deriving DecidableEq, Repr

inductive FieldValue where
  | text (s : List Char)
  | number (n : Int)
  deriving DecidableEq, Repr

namespace FieldSpec

def left (spec : FieldSpec) : Bool := spec.flags.contains '-'

def zeros (spec : FieldSpec) : Bool := spec.flags.contains '0' && !spec.left

/-- The number sign asks for the fuller form of a number. -/
def full (spec : FieldSpec) : Bool := spec.flags.contains '#'

def padding (width : Nat) (s : List Char) (fill : Char) : List Char :=
  List.replicate (width - s.length) fill

def pad (spec : FieldSpec) (s : List Char) : List Char :=
  if spec.left then s ++ padding spec.width s ' ' else padding spec.width s ' ' ++ s

def cut (spec : FieldSpec) (s : List Char) : List Char :=
  match spec.precision with
  | none => s
  | some p => s.take p

def sign (spec : FieldSpec) (negative : Bool) : List Char :=
  if negative then ['-']
  else if spec.flags.contains '+' then ['+']
  else if spec.flags.contains ' ' then [' ']
  else []

/-- Zeros that fill the width stand between what begins a number and its digits. -/
def joinNumber (spec : FieldSpec) (start digits : List Char) : List Char :=
  if spec.zeros then start ++ padding (spec.width - start.length) digits '0' ++ digits
  else spec.pad (start ++ digits)

/-- The digits of a whole number, at least as many as the precision says. -/
def wholeDigits (spec : FieldSpec) (base n : Nat) : List Char :=
  let digits := Text.digitsIn base n
  padding (spec.precision.getD 0) digits '0' ++ digits

/-- What shows the base of a whole number. -/
def baseMark (spec : FieldSpec) (letter : Char) : List Char :=
  if spec.full then ['0', letter] else []

def whole (spec : FieldSpec) (base : Nat) (mark : List Char) (n : Int) : List Char :=
  spec.joinNumber (spec.sign (decide (n < 0)) ++ mark) (spec.wholeDigits base n.natAbs)

def places (spec : FieldSpec) : Nat := spec.precision.getD 6

/-- A whole number as the double next to it, unless it is beyond all doubles. -/
def fractional (spec : FieldSpec) (shown : Dyadic → List Char) (n : Int) : Option (List Char) :=
  (Dyadic.ofBits (Float.ofInt n).toBits).map fun x =>
    spec.joinNumber (spec.sign (decide (n < 0))) (shown x)

/-- The numbers that are characters leave out the surrogates. -/
def character (spec : FieldSpec) : FieldValue → Option (List Char)
  | .text [c] => some (spec.pad [c])
  | .text _ => none
  | .number n =>
    if 0 ≤ n ∧ n.toNat.isValidChar then some (spec.pad [Char.ofNat n.toNat]) else none

/-- A number in one of the forms that are for numbers only. -/
def number (spec : FieldSpec) (n : Int) : Option (List Char) :=
  match spec.conversion with
  | 'd' | 'i' | 'u' => some (spec.whole 10 [] n)
  | 'o' => some (spec.whole 8 (spec.baseMark 'o') n)
  | 'x' => some (spec.whole 16 (spec.baseMark 'x') n)
  | 'X' => some ((spec.whole 16 (spec.baseMark 'x') n).map Char.toUpper)
  | 'f' | 'F' => spec.fractional (fun x => x.withPlaces spec.places spec.full) n
  | 'e' => spec.fractional (fun x => x.exponential spec.places spec.full) n
  | 'E' => (spec.fractional (fun x => x.exponential spec.places spec.full) n).map upperCase
  | 'g' => spec.fractional (fun x => x.general spec.places spec.full) n
  | 'G' => (spec.fractional (fun x => x.general spec.places spec.full) n).map upperCase
  | _ => none
where
  upperCase (s : List Char) : List Char := s.map Char.toUpper

def plain : FieldValue → List Char
  | .text s => s
  | .number n => Text.signedDecimal n

/-- A text in quotes. A number needs none. -/
def quotedBy (quote : List Char → List Char) : FieldValue → List Char
  | .text s => quote s
  | .number n => Text.signedDecimal n

/-- The text of a field, if its conversion can show it. -/
def shown (spec : FieldSpec) (v : FieldValue) : Option (List Char) :=
  match spec.conversion, v with
  | 's', v => some (spec.pad (spec.cut (plain v)))
  | 'r', v => some (spec.pad (spec.cut (quotedBy Text.quote v)))
  | 'a', v => some (spec.pad (spec.cut (quotedBy Text.quoteAscii v)))
  | 'c', v => spec.character v
  | _, .number n => spec.number n
  | _, .text _ => none

end FieldSpec

end PlainJson.Log

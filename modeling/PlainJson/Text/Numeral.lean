import PlainJson.Text.Blank
import PlainJson.Text.Digits

/-!
Whole numbers written as text. A plain numeral is a minus sign, if the number is below zero, and
digits without zeros in front. A loose one may have white space around it, a plus sign, zeros in
front, single underscores between its digits, and a point with zeros after it; it is tidied into a
plain one. Among zeros in front underscores may stand anyhow, and so may a minus sign after them.
-/
set_option autoImplicit false

namespace PlainJson.Numeral

inductive Flaw where
  | malformed
  | tooLong
  deriving DecidableEq, Repr

/-- The longest plain numeral that is read, the sign counted. -/
def maxLength : Nat := 4300

def signed (negative : Bool) (n : Nat) : Int := if negative then -n else n

/-- The number of a plain numeral. One that is too long is found out before what follows it. -/
def plain (s : List Char) : Except Flaw Int :=
  let negative := s.head? == some '-'
  let unsigned := if negative then s.drop 1 else s
  let digits := unsigned.takeWhile Char.isDigit
  let rest := unsigned.dropWhile Char.isDigit
  match digits with
  | [] => .error .malformed
  | '0' :: more => if more = [] ∧ rest = [] then .ok 0 else .error .malformed
  | _ =>
    if maxLength < s.length - rest.length then .error .tooLong
    else if rest = [] then .ok (signed negative (Text.decimalValue digits))
    else .error .malformed

/-- Drops zeros and underscores. What comes after them is a digit or a minus sign; if it is a point
or nothing, the last of them stays. -/
def afterZero (last : Char) : List Char → Option (List Char)
  | [] => some [last]
  | c :: cs =>
    if c = '0' ∨ c = '_' then afterZero c cs
    else if c.isDigit ∨ c = '-' then some (c :: cs)
    else if c = '.' then some (last :: c :: cs)
    else none

def dropZeros : List Char → Option (List Char)
  | [] => none
  | c :: cs =>
    if c = '0' then afterZero c cs
    else if c.isDigit then some (c :: cs)
    else none

/-- A point needs zeros after it, and nothing else. -/
def dropPoint (s : List Char) : Option (List Char) :=
  match s.dropWhile (· != '.') with
  | [] => some s
  | _ :: zeros =>
    if zeros != [] && zeros.all (· == '0') then some (s.takeWhile (· != '.')) else none

def isDoubled (d : Char) : List Char → Bool
  | a :: b :: s => a == d && b == d || isDoubled d (b :: s)
  | _ => false

/-- Drops underscores, if they stand one at a time within the text. -/
def ungroup (s : List Char) : List Char :=
  if s.head? == some '_' || s.getLast? == some '_' || isDoubled '_' s then s
  else s.filter (· != '_')

def tidyDigits (s : List Char) : Option (List Char) :=
  ((dropZeros s).bind dropPoint).map ungroup

/-- The plain form of a loose numeral. -/
def tidy (s : List Char) : Option (List Char) :=
  match Text.trimSpace s with
  | '+' :: cs => if cs.head? == some '-' then none else tidyDigits cs
  | '-' :: cs => (tidyDigits cs).map ('-' :: ·)
  | cs => tidyDigits cs

/-- Reads a numeral as it stands, or else its plain form. -/
def read (s : List Char) : Except Flaw Int :=
  match plain s with
  | .error .malformed =>
    match tidy s with
    | some t => plain t
    | none => .error .malformed
  | result => result

example : (read " +00_7.00 ".toList).toOption = some 7 ∧ (read "0__5".toList).toOption = some 5 ∧
    (read "0-5".toList).toOption = some (-5) := by
  decide +kernel

example : (read "5__0".toList).toOption = none ∧ (read "1.".toList).toOption = none ∧
    (read "0_".toList).toOption = none := by
  decide +kernel

end PlainJson.Numeral

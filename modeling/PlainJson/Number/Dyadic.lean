import PlainJson.Text.Digits

/-!
A finite double as the exact number that it stands for: a natural number times a power of two, with
a sign. Rounding to a number of decimal places is done on that number, and a half goes to the even
neighbour.
-/
set_option autoImplicit false

namespace PlainJson

structure Dyadic where
  negative : Bool
  mantissa : Nat
  exponent : Int
  deriving DecidableEq, Repr

/-- The quotient nearest to `num / den`. -/
def roundHalfEven (num den : Nat) : Nat :=
  let q := num / den
  let r := num % den
  if 2 * r < den then q
  else if den < 2 * r then q + 1
  else if q % 2 = 0 then q else q + 1

namespace Dyadic

/-- The number behind the bits of a double; infinities and not-a-number have none. -/
def ofBits (b : UInt64) : Option Dyadic :=
  let n := b.toNat
  let hidden := Nat.pow 2 52
  let negative := n / Nat.pow 2 63 == 1
  let field : Nat := n / hidden % 2048
  let fraction := n % hidden
  if field = 2047 then none
  else if field = 0 then some ⟨negative, fraction, -1074⟩
  else some ⟨negative, fraction + hidden, (field : Int) - 1075⟩

def numerator (x : Dyadic) : Nat := x.mantissa * Nat.pow 2 x.exponent.toNat

def denominator (x : Dyadic) : Nat := Nat.pow 2 (-x.exponent).toNat

/-- The whole number that equals `x`, if there is one. -/
def toInt? (x : Dyadic) : Option Int :=
  if x.numerator % x.denominator = 0 then
    let n : Int := (x.numerator / x.denominator : Nat)
    some (if x.negative then -n else n)
  else none

/-- The magnitude counted in units of the last of `places` decimal places. -/
def units (x : Dyadic) (places : Nat) : Nat :=
  roundHalfEven (x.numerator * Nat.pow 10 places) x.denominator

/-- A sign is written whenever the number has one, also before zero. -/
def fixed (x : Dyadic) (places : Nat) : List Char :=
  let one := Nat.pow 10 places
  (if x.negative then ['-'] else []) ++ Text.decimal (x.units places / one) ++ ['.'] ++
    Text.fixedDigits 10 places (x.units places % one)

/-- The double nearest to the number with `places` decimal places that is nearest to `x`. -/
def rounded (x : Dyadic) (places : Nat) : Float :=
  let r := Float.ofScientific (x.units places) true places
  if x.negative then -r else r

end Dyadic

/-- What stands for a double that is not a number of its own. -/
def Double.unmeasured (x : Float) : List Char :=
  if x.isNaN then "nan".toList else if x < 0 then "-inf".toList else "inf".toList

def Double.fixed (x : Float) (places : Nat) : String :=
  String.ofList <| match Dyadic.ofBits x.toBits with
    | some d => d.fixed places
    | none => Double.unmeasured x

def Double.roundTo (x : Float) (places : Nat) : Float :=
  match Dyadic.ofBits x.toBits with
  | some d => d.rounded places
  | none => x

end PlainJson

import PlainJson.Number.Shortest

/-!
Magnitudes of doubles with a given number of digits: positional, scientific, or whichever of the two
is the shorter for the size of the number. Signs are left to the caller.
-/
set_option autoImplicit false

namespace PlainJson.Dyadic

/-- The first `count` digits after rounding, and the power of ten of the first. -/
def leading (x : Dyadic) (count : Nat) : List Char × Int :=
  if x.mantissa = 0 then (List.replicate count '0', 0)
  else
    let u := x.significant count
    let digits := Text.decimal u.1
    (digits.take count, u.2 + digits.length - 1)

/-- Drops the zeros at the end of a text with a point, and then the point. -/
def dropFraction (s : List Char) : List Char :=
  if s.contains '.' then
    let t := trimZeros s
    if t.getLast? == some '.' then t.dropLast else t
  else s

/-- With `keepPoint` a point is written even if no digit follows it. -/
def withPlaces (x : Dyadic) (places : Nat) (keepPoint : Bool) : List Char :=
  let s := ({ x with negative := false }).fixed places
  if places = 0 && !keepPoint then s.dropLast else s

def exponential (x : Dyadic) (places : Nat) (keepPoint : Bool) : List Char :=
  let l := x.leading (places + 1)
  mantissaText l.1 keepPoint ++ powerText l.2

/-- With `keepZeros` all `count` digits are written, also zeros at the end. -/
def general (x : Dyadic) (count : Nat) (keepZeros : Bool) : List Char :=
  let least := if count = 0 then 1 else count
  let l := x.leading least
  let trim := if keepZeros then id else dropFraction
  if -4 ≤ l.2 ∧ l.2 < least then
    trim (x.withPlaces ((least : Int) - 1 - l.2).toNat keepZeros)
  else trim (mantissaText l.1 keepZeros) ++ powerText l.2

end PlainJson.Dyadic

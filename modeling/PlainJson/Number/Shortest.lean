import PlainJson.Number.Dyadic

/-! The shortest decimal text that reads back as a double: the fewest digits whose nearest double it
is. It is positional from 0.0001 up to below 10^16 and has a point, and is scientific elsewhere. -/
set_option autoImplicit false

namespace PlainJson

namespace Dyadic

/-- The power of ten of the leading digit of a number that is not zero. -/
def magnitude (x : Dyadic) : Int :=
  let num := x.numerator
  let den := x.denominator
  if den ≤ num then ((Text.decimal (num / den)).length : Int) - 1
  else -((Text.decimal ((den - 1) / num)).length : Int)

/-- The number rounded to `count` significant digits, as a whole number of units `10 ^ shift`. -/
def significant (x : Dyadic) (count : Nat) : Nat × Int :=
  let shift := x.magnitude - count + 1
  (roundHalfEven (x.numerator * Nat.pow 10 (-shift).toNat)
    (x.denominator * Nat.pow 10 shift.toNat), shift)

def readsBack (bits : UInt64) (u : Nat × Int) : Bool :=
  let y := if 0 ≤ u.2 then Float.ofScientific u.1 false u.2.toNat
    else Float.ofScientific u.1 true (-u.2).toNat
  y.toBits == bits

def shortest (x : Dyadic) (bits : UInt64) : Nat × Int :=
  match ((List.range 17).map fun k => x.significant (k + 1)).find? (readsBack bits) with
  | some u => u
  | none => x.significant 17

def trimZeros (s : List Char) : List Char := (s.reverse.dropWhile (· == '0')).reverse

def positional (digits : List Char) (k : Int) : List Char :=
  if k < 0 then ['0', '.'] ++ List.replicate (-k - 1).toNat '0' ++ digits
  else
    let whole := digits.take (k.toNat + 1)
    let part := digits.drop (k.toNat + 1)
    whole ++ List.replicate (k.toNat + 1 - digits.length) '0' ++ ['.'] ++
      (if part.isEmpty then ['0'] else part)

/-- The power of ten has a sign and at least two digits. -/
def powerText (k : Int) : List Char :=
  let digits := Text.decimal k.natAbs
  ['e', if k < 0 then '-' else '+'] ++ (if digits.length < 2 then '0' :: digits else digits)

/-- One digit before the point. With `keepPoint` a point is written even if no digit follows it. -/
def mantissaText (digits : List Char) (keepPoint : Bool) : List Char :=
  digits.take 1 ++ (if digits.length ≤ 1 && !keepPoint then [] else '.' :: digits.drop 1)

def scientific (digits : List Char) (k : Int) : List Char :=
  mantissaText digits false ++ powerText k

end Dyadic

def Double.shortest (x : Float) : String :=
  String.ofList <| match Dyadic.ofBits x.toBits with
    | none => Double.unmeasured x
    | some d =>
      let sign := if d.negative then ['-'] else []
      if d.mantissa = 0 then sign ++ ['0', '.', '0']
      else
        let u := d.shortest (if d.negative then -x else x).toBits
        let all := Text.decimal u.1
        let k := u.2 + all.length - 1
        let digits := Dyadic.trimZeros all
        sign ++ (if -4 ≤ k ∧ k < 16 then Dyadic.positional digits k else Dyadic.scientific digits k)

end PlainJson

import PlainJson.Text.Digits

/-!
Dates of the Gregorian calendar, carried on in both directions, from seconds since the start of 1970
in universal time.
-/
set_option autoImplicit false

namespace PlainJson

structure Date where
  year : Int
  month : Nat
  day : Nat
  deriving DecidableEq, Repr

namespace Calendar

def secondsPerDay : Int := 86400

/-- Years run from March, so that the leap day ends its year; an era is 400 years. -/
def dateOfDay (day : Int) : Date :=
  let shifted := day + 719468
  let era := shifted.fdiv 146097
  let inEra := (shifted.fmod 146097).toNat
  let yearOfEra := (inEra - inEra / 1460 + inEra / 36524 - inEra / 146096) / 365
  let dayOfYear := inEra - (365 * yearOfEra + yearOfEra / 4 - yearOfEra / 100)
  let fromMarch := (5 * dayOfYear + 2) / 153
  let month := if fromMarch < 10 then fromMarch + 3 else fromMarch - 9
  let year := (yearOfEra : Int) + era * 400 + (if month ≤ 2 then 1 else 0)
  ⟨year, month, dayOfYear - (153 * fromMarch + 2) / 5 + 1⟩

def twoDigits (n : Nat) : List Char := Text.fixedDigits 10 2 n

/-- The date and the time of day, to the second. -/
def timestamp (seconds : Int) : String :=
  let date := dateOfDay (seconds.fdiv secondsPerDay)
  let time := (seconds.fmod secondsPerDay).toNat
  String.ofList <|
    Text.signedDecimal date.year ++ ['-'] ++ twoDigits date.month ++ ['-'] ++ twoDigits date.day ++
      [' '] ++ twoDigits (time / 3600) ++ [':'] ++ twoDigits (time / 60 % 60) ++ [':'] ++
      twoDigits (time % 60)

example : dateOfDay 0 = ⟨1970, 1, 1⟩ := by decide +kernel

example : dateOfDay 11016 = ⟨2000, 2, 29⟩ ∧ dateOfDay 11017 = ⟨2000, 3, 1⟩ := by decide +kernel

example : timestamp (-1) = "1969-12-31 23:59:59" := by decide +kernel

end Calendar

end PlainJson

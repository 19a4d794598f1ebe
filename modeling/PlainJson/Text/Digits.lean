/-! Numerals in base ten and other bases up to sixteen as lists of digit characters. -/
set_option autoImplicit false

namespace PlainJson.Text

def digitChar (d : Nat) : Char := Char.ofNat (if d < 10 then d + 48 else d + 87)

def digitValue (c : Char) : Nat := c.toNat - 48

def decimalValue (s : List Char) : Nat := s.foldl (fun n c => 10 * n + digitValue c) 0

@[simp] theorem decimalValue_nil : decimalValue [] = 0 := rfl

theorem decimalValue_concat (s : List Char) (c : Char) :
    decimalValue (s ++ [c]) = 10 * decimalValue s + digitValue c := by
  simp [decimalValue]

/-- The last `width` digits of `n`, with leading zeros. -/
def fixedDigits (base : Nat) : Nat → Nat → List Char
  | 0, _ => []
  | width + 1, n => fixedDigits base width (n / base) ++ [digitChar (n % base)]

theorem length_fixedDigits (base width n : Nat) : (fixedDigits base width n).length = width := by
  induction width generalizing n with
  | zero => rfl
  | succ k ih => simp [fixedDigits, ih]

/-- The digits of a number without zeros in front. There is no base below two. -/
def digitsIn (base n : Nat) : List Char :=
  if base < 2 ∨ n < base then [digitChar n]
  else digitsIn base (n / base) ++ [digitChar (n % base)]
termination_by n
decreasing_by exact Nat.div_lt_self (by omega) (by omega)

def decimal (n : Nat) : List Char := digitsIn 10 n

theorem decimal_eq (n : Nat) :
    decimal n = if n < 10 then [digitChar n] else decimal (n / 10) ++ [digitChar (n % 10)] := by
  unfold decimal
  rw [digitsIn]
  by_cases h : n < 10 <;> simp [h]

theorem digitValue_digitChar {d : Nat} (h : d < 10) : digitValue (digitChar d) = d := by
  have hs : ∀ k : Fin 10, digitValue (digitChar k.val) = k.val := by decide
  exact hs ⟨d, h⟩

theorem decimalValue_decimal (n : Nat) : decimalValue (decimal n) = n := by
  induction n using Nat.strongRecOn with
  | ind n ih =>
    rw [decimal_eq]
    split
    · rename_i h
      simpa [decimalValue] using digitValue_digitChar h
    · rename_i h
      rw [decimalValue_concat, ih (n / 10) (by omega), digitValue_digitChar (by omega)]
      omega

def signedDecimal (i : Int) : List Char :=
  if i < 0 then '-' :: decimal i.natAbs else decimal i.natAbs

def numeral (n : Nat) : String := String.ofList (decimal n)

def signedNumeral (i : Int) : String := String.ofList (signedDecimal i)

end PlainJson.Text

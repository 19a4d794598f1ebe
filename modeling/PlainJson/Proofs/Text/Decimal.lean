import Mathlib.Data.List.Induction
import Mathlib.Data.Nat.Digits.Defs
import PlainJson.Text.Digits
import PlainJson.Proofs.Text.Stretch

/-!
What numerals stand for and how long they are. The value is that of the digits in base ten, whatever
zeros stand in front. A numeral of `k` digits stands for less than `10 ^ k`, and every number below
that is written with `k` digits or fewer.
-/
set_option autoImplicit false

namespace PlainJson.Text

theorem isDigit_digitChar {d : Nat} (h : d < 10) : (digitChar d).isDigit = true := by
  have hs : ∀ k : Fin 10, (digitChar k.val).isDigit = true := by decide
  exact hs ⟨d, h⟩

theorem digitValue_lt {c : Char} (h : c.isDigit = true) : digitValue c < 10 := by
  have hb := (Char.isDigit_iff_toNat.1 h).2
  have h₉ : '9'.toNat = 57 := rfl
  simp only [digitValue]
  omega

/-- The last digit written is the one that counts least. -/
theorem decimalValue_eq_ofDigits (ds : List Char) :
    decimalValue ds = Nat.ofDigits 10 (ds.reverse.map digitValue) := by
  induction ds using List.reverseRecOn with
  | nil => rfl
  | append_singleton ds c ih =>
    have hr : (ds ++ [c]).reverse.map digitValue = digitValue c :: ds.reverse.map digitValue := by
      simp
    rw [decimalValue_concat, ih, hr, Nat.ofDigits_cons, Nat.add_comm]

theorem decimalValue_zeros (zeros : Nat) (ds : List Char) :
    decimalValue (List.replicate zeros '0' ++ ds) = decimalValue ds := by
  have hz : List.foldl (fun n c => 10 * n + digitValue c) 0 (List.replicate zeros '0') = 0 := by
    induction zeros with
    | zero => rfl
    | succ k ih => exact ih
  rw [decimalValue, List.foldl_append, hz, decimalValue]

theorem decimal_ne_nil (n : Nat) : decimal n ≠ [] := by
  rw [decimal_eq]
  split
  · simp
  · simp

theorem allOf_isDigit_decimal (n : Nat) : AllOf Char.isDigit (decimal n) := by
  induction n using Nat.strongRecOn with
  | ind n ih =>
    rw [decimal_eq]
    split
    · rename_i h
      simpa using isDigit_digitChar h
    · rename_i h
      have hlast := isDigit_digitChar (Nat.mod_lt n (by omega : 10 > 0))
      simpa using ⟨ih (n / 10) (by omega), hlast⟩

theorem length_decimal_le {n k : Nat} (hk : k ≠ 0) (h : n < 10 ^ k) : (decimal n).length ≤ k := by
  induction k generalizing n with
  | zero => exact (hk rfl).elim
  | succ k ih =>
    rw [decimal_eq]
    split
    · simp
    · rename_i hn
      have hk : k ≠ 0 := by
        rintro rfl
        omega
      have hdiv : n / 10 < 10 ^ k := by
        rw [Nat.pow_succ] at h
        omega
      have hl := ih hk hdiv
      simp only [List.length_append, List.length_singleton]
      omega

theorem decimalValue_lt {ds : List Char} (h : AllOf Char.isDigit ds) :
    decimalValue ds < 10 ^ ds.length := by
  induction hl : ds.length generalizing ds with
  | zero =>
    obtain rfl := List.length_eq_zero_iff.1 hl
    simp
  | succ k ih =>
    rcases List.eq_nil_or_concat ds with rfl | ⟨es, c, rfl⟩
    · cases hl
    · rw [List.concat_eq_append] at h hl ⊢
      obtain ⟨hes, hc⟩ := allOf_append.1 h
      have hd := digitValue_lt (hc c (by simp))
      have he := ih hes (by simpa using hl)
      rw [decimalValue_concat, Nat.pow_succ]
      omega

end PlainJson.Text

import ResilientCalls.Numeric.Decimal
import Mathlib.Data.Nat.Basic
/-!
# Runs of decimal digits

The value of a run of digits, and how many digits a number has: the value
of the digits of a number is the number (`digitsValue_toDigits`), and a
positive number lies between the powers of ten that its digits count
(`pow10_le_of_pos`, `lt_pow10_decimalLength`).
-/

namespace ResilientCalls

/-! ## Values -/

theorem digitsValue_eq (cs : List Char) : digitsValue cs = Nat.ofDigitChars 10 cs 0 := by
  rw [digitsValue, Nat.ofDigitChars_eq_foldl]
  congr 1
  funext n c
  rw [Nat.mul_comm]
  rfl

/-- **The digits of a number have its value.** -/
@[simp] theorem digitsValue_toDigits (n : Nat) : digitsValue (Nat.toDigits 10 n) = n := by
  rw [digitsValue_eq, Nat.ofDigitChars_ten_toDigits]

/-- Digits in front count for the powers of ten of the digits behind. -/
theorem digitsValue_append (cs ds : List Char) :
    digitsValue (cs ++ ds) = digitsValue cs * pow10 ds.length + digitsValue ds := by
  simp only [digitsValue_eq]
  rw [Nat.ofDigitChars_append, Nat.ofDigitChars_eq_ofDigitChars_zero, Nat.mul_comm]
  rfl

@[simp] theorem digitsValue_replicate_zero (count : Nat) :
    digitsValue (List.replicate count '0') = 0 := by
  rw [digitsValue_eq, Nat.ofDigitChars_replicate_zero, Nat.mul_zero]

/-- The digits of a number are digits. -/
theorem isDigit_of_mem_toDigits {n : Nat} {c : Char} (h : c ∈ Nat.toDigits 10 n) :
    c.isDigit = true :=
  Nat.isDigit_of_mem_toDigits (by decide) (by decide) h

/-- A positive number does not begin with a zero. -/
theorem head_toDigits_ne_zero {n : Nat} (hn : 0 < n) :
    ∃ c cs, Nat.toDigits 10 n = c :: cs ∧ c ≠ '0' := by
  induction n using Nat.strongRecOn with
  | ind n ih =>
    rcases Nat.lt_or_ge n 10 with hlt | hge
    · refine ⟨n.digitChar, [], Nat.toDigits_of_lt_base hlt, fun h => ?_⟩
      rw [Nat.digitChar_eq_zero] at h
      omega
    · obtain ⟨c, cs, heq, hc⟩ := ih (n / 10) (by omega) (by omega)
      refine ⟨c, cs ++ [(n % 10).digitChar], ?_, hc⟩
      rw [Nat.toDigits_of_base_le (by decide) hge, heq, List.cons_append]

/-! ## How many digits -/

theorem pow10_pos (n : Nat) : 0 < pow10 n := Nat.pow_pos (by decide)

theorem pow10_add (m n : Nat) : pow10 (m + n) = pow10 m * pow10 n := Nat.pow_add 10 m n

theorem pow10_le_pow10 {m n : Nat} (h : m ≤ n) : pow10 m ≤ pow10 n :=
  Nat.pow_le_pow_right (by decide) h

theorem decimalLength_pos (n : Nat) : 0 < decimalLength n := Nat.length_toDigits_pos

/-- A number has at most as many digits as a power of ten above it. -/
theorem decimalLength_le_iff {n k : Nat} (hk : 0 < k) : decimalLength n ≤ k ↔ n < pow10 k :=
  Nat.length_toDigits_le_iff (by decide) hk

/-- A number lies below the power of ten that its digits count. -/
theorem lt_pow10_decimalLength (n : Nat) : n < pow10 (decimalLength n) :=
  (decimalLength_le_iff (decimalLength_pos n)).1 le_rfl

/-- A positive number reaches the power of ten of its leading digit. -/
theorem pow10_le_of_pos {n : Nat} (hn : 0 < n) : pow10 (decimalLength n - 1) ≤ n := by
  by_contra hlt
  rcases Nat.eq_or_lt_of_le (decimalLength_pos n) with heq | hgt
  · rw [← heq] at hlt
    exact hlt hn
  · have hle := (decimalLength_le_iff (n := n) (k := decimalLength n - 1) (by omega)).2
      (not_le.1 hlt)
    omega

end ResilientCalls

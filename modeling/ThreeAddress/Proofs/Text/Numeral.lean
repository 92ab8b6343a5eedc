import Mathlib.Data.List.Basic
import ThreeAddress.Text.Numeral

/-! Decimal numerals read back as the machine integers that they were written for. -/

namespace ThreeAddress.Text

private theorem digitIn_ten {c : Char} (digit : c.isDigit = true) :
    digitIn 10 c = some (c.toNat - '0'.toNat) := by
  -- A decimal digit has the value that it shows.
  have range := Char.isDigit_iff_toNat.mp digit
  have shown : '0' ≤ c ∧ c ≤ '9' := by
    simpa [Char.isDigit, Char.le_def] using digit
  have small : c.toNat - '0'.toNat < 10 := by
    simp only [Char.reduceToNat] at range ⊢
    omega
  simp only [digitIn, digitValue, if_pos shown, Option.filter_some, decide_eq_true_eq, if_pos small]

/-- Decimal digits are read as the number that they spell. -/
theorem readDigits_ten {digits : List Char} (decimal : ∀ c ∈ digits, c.isDigit = true)
    (value : Nat) : readDigits 10 value digits = some (Nat.ofDigitChars 10 digits value) := by
  -- Each digit is added behind the value of those before it.
  induction digits generalizing value with
  | nil => simp [readDigits]
  | cons c rest ih =>
    rw [readDigits, digitIn_ten (decimal c List.mem_cons_self), Option.bind_some,
      ih fun d member => decimal d (List.mem_cons_of_mem c member), Nat.ofDigitChars_cons,
      Nat.mul_comm]

/-- The decimal digits of a number are read as that number. -/
theorem readNatural_toDigits (n : Nat) : readNatural 10 (Nat.toDigits 10 n) = some n := by
  -- There is a digit even for zero, so the text is not refused as empty.
  have decimal : ∀ c ∈ Nat.toDigits 10 n, c.isDigit = true := fun c member =>
    Nat.isDigit_of_mem_toDigits (by decide) (by decide) member
  have nonempty : (Nat.toDigits 10 n).isEmpty = false := by
    simp
  rw [readNatural, nonempty, if_neg Bool.false_ne_true, readDigits_ten decimal,
    Nat.ofDigitChars_ten_toDigits]

private theorem readMarked_decimal {digits : List Char} (decimal : ∀ c ∈ digits, c.isDigit = true) :
    readMarked digits = readNatural 10 digits := by
  -- Digits alone carry no radix mark.
  unfold readMarked
  split
  -- Each mark has a letter in second place, and no letter is a decimal digit.
  · exact absurd (decimal 'x' (by simp)) (by decide)
  · exact absurd (decimal 'X' (by simp)) (by decide)
  · exact absurd (decimal 'o' (by simp)) (by decide)
  · exact absurd (decimal 'O' (by simp)) (by decide)
  · rfl

/-- The decimal digits of a number carry no sign and are read as that number. -/
theorem readSigned_toDigits (n : Nat) :
    readSigned readMarked (Nat.toDigits 10 n) = some (n : Int) := by
  -- A digit is no sign, so the whole text is read as a number.
  have decimal : ∀ c ∈ Nat.toDigits 10 n, c.isDigit = true := fun c member =>
    Nat.isDigit_of_mem_toDigits (by decide) (by decide) member
  unfold readSigned
  split
  · rename_i rest same
    exact absurd (decimal '-' (by simp [same])) (by decide)
  · rename_i rest same
    exact absurd (decimal '+' (by simp [same])) (by decide)
  · simp [readMarked_decimal decimal, readNatural_toDigits]

/-- The decimal form of a positive number does not begin with a zero. -/
theorem head?_toDigits {n : Nat} (positive : 0 < n) : (Nat.toDigits 10 n).head? ≠ some '0' := by
  -- The first digit stays the first one, while further digits are put behind it.
  induction n using Nat.strongRecOn with
  | ind n ih =>
    by_cases single : n < 10
    · rw [Nat.toDigits_of_lt_base single, List.head?_cons, ne_eq, Option.some.injEq,
        Nat.digitChar_eq_zero]
      omega
    · rw [Nat.toDigits_of_base_le (by decide) (Nat.not_lt.mp single),
        List.head?_append_of_ne_nil _ Nat.toDigits_ne_nil]
      exact ih (n / 10) (by omega) (by omega)

/-- The decimal form of an integer: its digits, behind a minus sign if it is negative. -/
theorem toList_repr_int (n : Int) :
    n.repr.toList = if 0 ≤ n then Nat.toDigits 10 n.toNat
      else '-' :: Nat.toDigits 10 (-n).toNat := by
  -- The library tells both forms apart by the sign.
  rw [Int.repr_eq_if]
  split
  · exact Nat.toList_repr
  · simp

/-- An integer in decimal form is read as that integer. -/
theorem readSigned_repr (n : Int) : readSigned readMarked n.repr.toList = some n := by
  -- A negative number is written as a sign and the digits of its absolute value.
  rw [toList_repr_int]
  split
  · rename_i positive
    rw [readSigned_toDigits, Int.toNat_of_nonneg positive]
  · -- Behind the sign stands a numeral without one.
    rename_i negative
    have decimal : ∀ c ∈ Nat.toDigits 10 (-n).toNat, c.isDigit = true := fun c member =>
      Nat.isDigit_of_mem_toDigits (by decide) (by decide) member
    rw [readSigned, readMarked_decimal decimal, readNatural_toDigits]
    simp
    omega

/-- A machine integer in decimal form is read as that machine integer. -/
theorem readIntLiteral_repr (n : Int64) : readIntLiteral n.toInt.repr.toList = some n := by
  -- A machine integer is in range by itself.
  rw [readIntLiteral, readSigned_repr, Option.bind_some, toInt64?,
    if_pos ⟨n.minValue_le_toInt, n.toInt_le⟩, Int64.ofInt_toInt]

end ThreeAddress.Text

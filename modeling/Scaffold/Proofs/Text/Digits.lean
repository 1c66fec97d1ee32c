import Mathlib.Algebra.Group.Nat.Defs
import Mathlib.Data.List.TakeDrop
import Scaffold.Text.Digits

/-! A number in digits has the value it was written for, however many zeros stand in front. Digits are cut off before a
    character that is no digit. -/

namespace Scaffold.Text

theorem digitsValue_eq_ofDigitChars (ds : List Char) : digitsValue ds = Nat.ofDigitChars 10 ds 0 := by
  rw [digitsValue, Nat.ofDigitChars_eq_foldl]
  congr 1
  funext n d
  rw [Nat.mul_comm]
  rfl

theorem digitsValue_append_zeros (ds : List Char) (k : Nat) :
    digitsValue (ds ++ List.replicate k '0') = digitsValue ds * 10 ^ k := by
  rw [digitsValue_eq_ofDigitChars, digitsValue_eq_ofDigitChars, Nat.ofDigitChars_append, Nat.ofDigitChars_replicate_zero,
    Nat.mul_comm]

@[simp]
theorem digitsValue_paddedNumber (width n : Nat) : digitsValue (paddedNumber width n) = n := by
  rw [digitsValue_eq_ofDigitChars, paddedNumber, Nat.ofDigitChars_append, Nat.ofDigitChars_replicate_zero, Nat.mul_zero,
    Nat.ofDigitChars_toDigits (by decide) (by decide)]

theorem isDigit_of_mem_paddedNumber {width n : Nat} {c : Char} (h : c ∈ paddedNumber width n) : c.isDigit = true := by
  rcases List.mem_append.mp h with hzero | hdigit
  · rw [(List.mem_replicate.mp hzero).2]
    rfl
  · exact Nat.isDigit_of_mem_toDigits (by decide) (by decide) hdigit

theorem length_paddedNumber {width n : Nat} (hwidth : 0 < width) (h : n < 10 ^ width) :
    (paddedNumber width n).length = width := by
  have hle := (Nat.length_toDigits_le_iff (by decide) hwidth).mpr h
  rw [paddedNumber, List.length_append, List.length_replicate]
  omega

theorem paddedNumber_ne_nil (width n : Nat) : paddedNumber width n ≠ [] := by
  simp [paddedNumber]

/-! ### Digits in front -/

theorem takeWhile_digits {ds : List Char} (hdigits : ∀ c ∈ ds, c.isDigit = true) {c : Char} (hc : c.isDigit = false)
    (rest : List Char) : (ds ++ c :: rest).takeWhile Char.isDigit = ds := by
  rw [List.takeWhile_append_of_pos hdigits, List.takeWhile_cons_of_neg (by simp [hc]), List.append_nil]

theorem span_digits {ds : List Char} (hdigits : ∀ c ∈ ds, c.isDigit = true) {c : Char} (hc : c.isDigit = false)
    (rest : List Char) : (ds ++ c :: rest).span Char.isDigit = (ds, c :: rest) := by
  rw [List.span_eq_takeWhile_dropWhile, takeWhile_digits hdigits hc, List.dropWhile_append_of_pos hdigits,
    List.dropWhile_cons_of_neg (by simp [hc])]

end Scaffold.Text

import Assemblage.Calendar
import Mathlib.Data.List.DropRight
import Mathlib.Data.Nat.Factorization.Basic

/-!
# Decimal digits

The digits of a number are read back as that number, zeros in front of them do not count, and
every zero behind them is a factor of ten. A number other than zero has the digits of a number that
ten does not divide, followed by zeros: `exists_toDigits_eq`.
-/

namespace Assemblage
set_option autoImplicit false

/-! ## Reading digits -/

theorem decimal_eq (s : List Char) : Stamp.decimal s = Nat.ofDigitChars 10 s 0 := by
  unfold Stamp.decimal Nat.ofDigitChars
  congr 1
  funext n c
  rw [Nat.mul_comm]

theorem decimal_toDigits (n : Nat) : Stamp.decimal (Nat.toDigits 10 n) = n := by
  rw [decimal_eq, Nat.ofDigitChars_ten_toDigits]

theorem decimal_append_zeros (s : List Char) (k : Nat) :
    Stamp.decimal (s ++ List.replicate k '0') = Stamp.decimal s * 10 ^ k := by
  rw [decimal_eq, decimal_eq, Nat.ofDigitChars_append, Nat.ofDigitChars_replicate_zero,
    Nat.mul_comm]

theorem decimal_zeros_append (k : Nat) (s : List Char) :
    Stamp.decimal (List.replicate k '0' ++ s) = Stamp.decimal s := by
  rw [decimal_eq, decimal_eq, Nat.ofDigitChars_append, Nat.ofDigitChars_replicate_zero,
    Nat.mul_zero]

/-! ## Writing digits -/

theorem isDecimal_of_mem_toDigits {n : Nat} {c : Char} (h : c ∈ Nat.toDigits 10 n) :
    Stamp.isDecimal c = true := by
  have hc := Nat.isDigit_of_mem_toDigits (by decide) (by decide) h
  simpa [Char.isDigit, Stamp.isDecimal, Char.le_def] using hc

theorem toDigits_mul_ten {n : Nat} (h : n ≠ 0) :
    Nat.toDigits 10 (n * 10) = Nat.toDigits 10 n ++ ['0'] := by
  have hdigits := Nat.toDigits_append_toDigits (b := 10) (n := n) (d := 0) (by decide)
    (Nat.pos_of_ne_zero h) (by decide)
  rw [Nat.toDigits_zero, Nat.add_zero, Nat.mul_comm] at hdigits
  exact hdigits.symm

theorem toDigits_mul_pow {n : Nat} (h : n ≠ 0) (k : Nat) :
    Nat.toDigits 10 (n * 10 ^ k) = Nat.toDigits 10 n ++ List.replicate k '0' := by
  induction k with
  | zero => simp
  | succ k ih =>
    have hne : n * 10 ^ k ≠ 0 := Nat.mul_ne_zero h (Nat.pow_pos (by decide)).ne'
    rw [Nat.pow_succ, ← Nat.mul_assoc, toDigits_mul_ten hne, ih, List.append_assoc,
      List.replicate_succ']

/-- A number other than zero does not start with a zero. -/
theorem toDigits_head {n : Nat} (h : n ≠ 0) :
    ∃ c rest, Nat.toDigits 10 n = c :: rest ∧ c ≠ '0' := by
  induction n using Nat.strongRecOn with
  | ind n ih =>
    by_cases hlt : n < 10
    · refine ⟨n.digitChar, [], Nat.toDigits_of_lt_base hlt, ?_⟩
      rw [ne_eq, Nat.digitChar_eq_zero]
      exact h
    · obtain ⟨c, rest, hdigits, hc⟩ := ih (n / 10) (by omega) (by omega)
      refine ⟨c, rest ++ [(n % 10).digitChar], ?_, hc⟩
      rw [Nat.toDigits_of_base_le (by decide) (by omega), hdigits, List.cons_append]

/-- What is left of the digits without the zeros at the end, if the number is no multiple of
ten. -/
theorem rdropWhile_toDigits {n : Nat} (h : ¬ 10 ∣ n) :
    (Nat.toDigits 10 n).rdropWhile (· == '0') = Nat.toDigits 10 n := by
  have hlast : ((n % 10).digitChar == '0') = false := by
    rw [beq_eq_false_iff_ne, ne_eq, Nat.digitChar_eq_zero]
    omega
  rw [Nat.toDigits_eq_if (by decide)]
  split
  · next hlt =>
    rw [Nat.mod_eq_of_lt hlt] at hlast
    exact List.rdropWhile_concat_neg _ [] _ (by simp [hlast])
  · exact List.rdropWhile_concat_neg _ _ _ (by simp [hlast])

theorem rdropWhile_append_zeros (s : List Char) (k : Nat) :
    (s ++ List.replicate k '0').rdropWhile (· == '0') = s.rdropWhile (· == '0') := by
  induction k with
  | zero => simp
  | succ k ih =>
    rw [List.replicate_succ', ← List.append_assoc, List.rdropWhile_concat_pos _ _ _ (by decide), ih]

/-- The digits of a number are those without the zeros at the end, and these zeros. -/
theorem exists_toDigits_eq {n : Nat} (h : n ≠ 0) :
    ∃ s k, s ≠ 0 ∧ n = s * 10 ^ k ∧
      Nat.toDigits 10 n = Nat.toDigits 10 s ++ List.replicate k '0' ∧
      (Nat.toDigits 10 n).rdropWhile (· == '0') = Nat.toDigits 10 s := by
  obtain ⟨k, s, hdvd, hn⟩ := Nat.exists_eq_pow_mul_and_not_dvd h 10 (by decide)
  have hs : s ≠ 0 := by
    rintro rfl
    exact hdvd (dvd_zero 10)
  rw [Nat.mul_comm] at hn
  refine ⟨s, k, hs, hn, ?_, ?_⟩
  · rw [hn, toDigits_mul_pow hs]
  · rw [hn, toDigits_mul_pow hs, rdropWhile_append_zeros, rdropWhile_toDigits hdvd]

end Assemblage

import Assemblage.Binary64.Shortest
import Assemblage.Proofs.Text.Decimal

/-!
# Rounding and decimals

Rounding a quotient depends on its value alone (`round?_scale`), and so does reading a decimal: a
factor of ten in the digits is one more place of the exponent (`ofDecimal_scale`). A magnitude is
its own rounding (`round?_units`).

Main statement: the shortest decimal of a magnitude is read as that magnitude, also when none of the
short ones is and the exact expansion stands in (`readsAs_shortest`).
-/

namespace Assemblage
set_option autoImplicit false
open Magnitude

/-! ## Quotients -/

theorem nearest_scale (num den : Nat) {c : Nat} (hc : 0 < c) :
    nearest (num * c) (den * c) = nearest num den := by
  have htwice : 2 * (num % den * c) = 2 * (num % den) * c := (Nat.mul_assoc _ _ _).symm
  have hlt : den * c < 2 * (num % den) * c ↔ den < 2 * (num % den) := Nat.mul_lt_mul_right hc
  have heq : 2 * (num % den) * c = den * c ↔ 2 * (num % den) = den := Nat.mul_left_inj hc.ne'
  unfold nearest
  simp only [Nat.mul_div_mul_right _ _ hc, Nat.mul_mod_mul_right, htwice, hlt, beq_eq_decide, heq]

theorem nearest_exact (n : Nat) {d : Nat} (hd : 0 < d) : nearest (n * d) d = n := by
  unfold nearest
  simp only [Nat.mul_div_cancel _ hd, Nat.mul_mod_left]
  rw [if_neg]
  simp only [Bool.or_eq_true, Bool.and_eq_true, decide_eq_true_eq, beq_iff_eq]
  omega

theorem round?_scale (num den : Nat) {c : Nat} (hc : 0 < c) :
    round? (num * c) (den * c) = round? num den := by
  unfold round?
  simp only [Nat.mul_div_mul_right _ _ hc, Nat.mul_right_comm den c, nearest_scale _ _ hc]

theorem ofUnits_scale (negative : Bool) (num den : Nat) {c : Nat} (hc : 0 < c) :
    Binary64.ofUnits negative (num * c) (den * c) = Binary64.ofUnits negative num den := by
  unfold Binary64.ofUnits
  rw [round?_scale _ _ hc]

/-! ## Magnitudes -/

theorem of?_self (m : Magnitude) : of? m.mantissa m.exponent = some m :=
  dif_pos ⟨m.mantissa_lt, m.normal, m.exponent_le⟩

theorem log2_units (m : Magnitude) : m.units.log2 + 1 - 53 = m.exponent := by
  have hlt : m.mantissa < 2 ^ 53 := m.mantissa_lt
  unfold units
  rw [Nat.pow_eq]
  rcases m.normal with h | h
  · rw [h, Nat.pow_zero, Nat.mul_one]
    by_cases hz : m.mantissa = 0
    · rw [hz]
      decide
    · have hlog : m.mantissa.log2 < 53 := (Nat.log2_lt hz).mpr hlt
      omega
  · have hlow : 2 ^ (52 + m.exponent) ≤ m.mantissa * 2 ^ m.exponent := by
      rw [Nat.pow_add]
      exact Nat.mul_le_mul_right _ h
    have hhigh : m.mantissa * 2 ^ m.exponent < 2 ^ (53 + m.exponent) := by
      rw [Nat.pow_add]
      exact Nat.mul_lt_mul_of_pos_right hlt (Nat.pow_pos (by decide))
    have hne : m.mantissa * 2 ^ m.exponent ≠ 0 :=
      (Nat.lt_of_lt_of_le (Nat.pow_pos (by decide)) hlow).ne'
    have hge := (Nat.le_log2 hne).mpr hlow
    have hle := (Nat.log2_lt hne).mpr hhigh
    omega

/-- A magnitude is its own rounding. -/
theorem round?_units (m : Magnitude) : round? m.units 1 = some m := by
  have hlt : m.mantissa < Nat.pow 2 53 := m.mantissa_lt
  unfold round?
  simp only [Nat.div_one, Nat.one_mul, log2_units]
  have hnearest : nearest m.units (Nat.pow 2 m.exponent) = m.mantissa :=
    nearest_exact m.mantissa (Nat.pow_pos (by decide))
  rw [hnearest, if_neg hlt.ne, of?_self]

theorem eq_zero_of_mantissa {m : Magnitude} (h : m.mantissa = 0) : m = .zero := by
  have hexponent : m.exponent = 0 := by
    rcases m.normal with he | he
    · exact he
    · rw [h] at he
      exact absurd he (by decide)
  cases m
  simp only at h hexponent
  subst h hexponent
  rfl

/-! ## Decimals -/

theorem ofDecimal_zero (negative : Bool) (e : Int) :
    Binary64.ofDecimal negative 0 e = .finite negative .zero := by
  simp [Binary64.ofDecimal]

/-- A factor of ten in the digits counts like a place in the exponent. -/
theorem ofDecimal_scale (negative : Bool) {digits : Nat} (h : digits ≠ 0) (k : Nat) (e : Int) :
    Binary64.ofDecimal negative (digits * 10 ^ k) e =
      Binary64.ofDecimal negative digits (e + k) := by
  have hne : digits * 10 ^ k ≠ 0 := Nat.mul_ne_zero h (Nat.pow_pos (by decide)).ne'
  have hplaces : ((Nat.toDigits 10 (digits * 10 ^ k)).length : Int) + e =
      (Nat.toDigits 10 digits).length + (e + k) := by
    rw [toDigits_mul_pow h, List.length_append, List.length_replicate]
    omega
  unfold Binary64.ofDecimal
  simp only [hplaces, hne, h, if_false, Nat.pow_eq]
  congr 2
  by_cases he : 0 ≤ e
  · have hexponent : (e + k).toNat = k + e.toNat := by omega
    rw [if_pos he, if_pos (by omega), hexponent, Nat.pow_add, Nat.mul_assoc digits]
  by_cases hek : 0 ≤ e + k
  · have hk : 10 ^ k = 10 ^ (e + k).toNat * 10 ^ (-e).toNat := by
      rw [← Nat.pow_add]
      congr 1
      omega
    rw [if_neg he, if_pos hek, ← ofUnits_scale negative _ 1 (c := 10 ^ (-e).toNat)
      (Nat.pow_pos (by decide)), Nat.one_mul, hk, ← Nat.mul_assoc, Nat.mul_right_comm _ _ one]
  · have hexponent : (-e).toNat = (-(e + k)).toNat + k := by omega
    rw [if_neg he, if_neg hek, hexponent, Nat.pow_add, ← ofUnits_scale negative (digits * one) _
      (c := 10 ^ k) (Nat.pow_pos (by decide)), Nat.mul_right_comm]

theorem ofDecimal_sign {digits : Nat} {e : Int} {m : Magnitude}
    (h : Binary64.ofDecimal false digits e = .finite false m) (negative : Bool) :
    Binary64.ofDecimal negative digits e = .finite negative m := by
  have hunits : ∀ num den, Binary64.ofUnits false num den = .finite false m →
      Binary64.ofUnits negative num den = .finite negative m := by
    intro num den hfinite
    unfold Binary64.ofUnits at hfinite ⊢
    cases hround : round? num den with
    | none =>
      rw [hround] at hfinite
      cases hfinite
    | some n =>
      rw [hround] at hfinite
      cases hfinite
      rfl
  unfold Binary64.ofDecimal at h ⊢
  simp only at h ⊢
  split at h
  · next hz =>
    cases h
    rw [if_pos hz]
  next hz =>
  split at h
  · cases h
  next hlarge =>
  split at h
  · next hsmall =>
    cases h
    rw [if_neg hz, if_neg hlarge, if_pos hsmall]
  next hsmall =>
  rw [if_neg hz, if_neg hlarge, if_neg hsmall]
  split at h
  · next he => rw [if_pos he, hunits _ _ h]
  · next he => rw [if_neg he, hunits _ _ h]

/-! ## The exact expansion -/

section
variable (units places : Nat)

theorem lt_length_expansion (least : Nat) (hunits : units ≠ 0) (hleast : 0 < least)
    (h : 10 ^ least ≤ Nat.pow 5 places) :
    least < (Nat.toDigits 10 (units * Nat.pow 5 places)).length := by
  by_contra hle
  have hlt := (Nat.length_toDigits_le_iff (by decide) hleast).mp (Nat.le_of_not_lt hle)
  have hge : Nat.pow 5 places ≤ units * Nat.pow 5 places :=
    Nat.le_mul_of_pos_left _ (Nat.pos_of_ne_zero hunits)
  exact absurd (Nat.lt_of_lt_of_le hlt (Nat.le_trans h hge)) (Nat.lt_irrefl _)

theorem length_expansion_le (bits most : Nat) (hunits : units < 2 ^ (bits + places))
    (hmost : 0 < most) (h : 2 ^ bits ≤ 10 ^ most) :
    (Nat.toDigits 10 (units * Nat.pow 5 places)).length ≤ most + places := by
  refine (Nat.length_toDigits_le_iff (by decide) (by omega)).mpr ?_
  calc units * Nat.pow 5 places < 2 ^ (bits + places) * 5 ^ places :=
        Nat.mul_lt_mul_of_pos_right hunits (Nat.pow_pos (by decide))
    _ = 2 ^ bits * 10 ^ places := by rw [Nat.pow_add, Nat.mul_assoc, ← Nat.mul_pow]
    _ ≤ 10 ^ most * 10 ^ places := Nat.mul_le_mul_right _ h
    _ = 10 ^ (most + places) := by rw [← Nat.pow_add]

/-- With as many places as one has bits, the expansion is read as the units. -/
theorem readsAs_expansion {m : Magnitude} (hone : Nat.pow 5 places * one = 10 ^ places)
    (hplaces : 0 < places) (hunits : units ≠ 0)
    (hlow : places < (Nat.toDigits 10 (units * Nat.pow 5 places)).length + 330)
    (hhigh : (Nat.toDigits 10 (units * Nat.pow 5 places)).length ≤ 310 + places)
    (hm : round? units 1 = some m) :
    Decimal.readsAs ⟨units * Nat.pow 5 places, -places⟩ m = true := by
  have hne : units * Nat.pow 5 places ≠ 0 := Nat.mul_ne_zero hunits (Nat.pow_pos (by decide)).ne'
  unfold Decimal.readsAs Binary64.ofDecimal
  simp only
  rw [if_neg hne, if_neg (by omega), if_neg (by omega), if_neg (by omega), Nat.mul_assoc, hone,
    neg_neg, Int.toNat_natCast, Nat.pow_eq, beq_iff_eq, Binary64.ofUnits]
  have hround := round?_scale units 1 (c := 10 ^ places) (Nat.pow_pos (by decide))
  rw [Nat.one_mul, hm] at hround
  rw [hround]

end

theorem units_lt (m : Magnitude) {bits : Nat} (h : 53 + m.exponent ≤ bits) :
    m.units < 2 ^ bits := by
  have hlt : m.units < 2 ^ (53 + m.exponent) := by
    rw [Nat.pow_add]
    exact Nat.mul_lt_mul_of_pos_right m.mantissa_lt (Nat.pow_pos (by decide))
  exact Nat.lt_of_lt_of_le hlt (Nat.pow_le_pow_right (by decide) h)

theorem units_ne_zero {m : Magnitude} (h : m.mantissa ≠ 0) : m.units ≠ 0 :=
  Nat.mul_ne_zero h (Nat.pow_pos (by decide)).ne'

theorem readsAs_exact {m : Magnitude} (h : m.mantissa ≠ 0) : (Decimal.exact m).readsAs m := by
  have hexponent := m.exponent_le
  have hone : Nat.pow 5 1074 * one = 10 ^ 1074 := by decide +kernel
  have hleast : 10 ^ 744 ≤ Nat.pow 5 1074 := by decide +kernel
  have hplaces : (-1074 : Int) = -((1074 : Nat) : Int) := rfl
  unfold Decimal.exact
  rw [hplaces]
  -- with a name for the number of places, no power of it is evaluated below
  generalize hp : 1074 = places at hone hleast ⊢
  have hlow := lt_length_expansion m.units places 744 (units_ne_zero h) (by decide) hleast
  have hhigh := length_expansion_le m.units places 1024 310 (units_lt m (by omega)) (by decide)
    (by decide +kernel)
  exact readsAs_expansion m.units places hone (by omega) (units_ne_zero h) (by omega) hhigh
    (round?_units m)

/-! ## The shortest decimal -/

theorem digits_ne_zero_of_readsAs {d : Decimal} {m : Magnitude} (hz : m.mantissa ≠ 0)
    (h : d.readsAs m) : d.digits ≠ 0 := by
  intro h0
  rw [Decimal.readsAs, beq_iff_eq, h0, ofDecimal_zero] at h
  cases h
  exact hz rfl

/-- The shortest decimal of a magnitude is read as that magnitude. -/
theorem readsAs_shortest {m : Magnitude} (h : m.mantissa ≠ 0) :
    (Decimal.shortest m).readsAs m := by
  unfold Decimal.shortest
  cases hfound : ((List.range 17).flatMap fun i => Decimal.onGrid m (i + 1)).head? with
  | none => exact readsAs_exact h
  | some d =>
    obtain ⟨i, -, hd⟩ := List.mem_flatMap.mp (List.mem_of_head? hfound)
    unfold Decimal.onGrid at hd
    exact (List.mem_filter.mp hd).2

end Assemblage

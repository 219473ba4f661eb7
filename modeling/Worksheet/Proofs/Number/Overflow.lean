import Worksheet.Proofs.Number.Magnitude
import Worksheet.Number.Numeral

/-! # Numerals that are too large

    Rounding ends in infinity from the value on that lies half a step above the largest finite
    number, `(2 ^ 53 - 1) * 2 ^ 971`. The value half way is itself rounded to the even neighbour,
    which is infinite.

    - `roundHalfEven_lt_iff`: what is rounded below an even natural.
    - `nearest_lt_infiniteMagnitude_iff`: which quotients are finite.
    - `Numeral.isFinite_toFloat_iff`: which numerals are finite.
-/

namespace Worksheet.Number

/-! ## Section 1: Rounding -/

/-- A quotient is rounded below an even natural when it lies more than a half below this. -/
theorem roundHalfEven_lt_iff {num den even : Nat} (hden : 0 < den) (hpos : 0 < even)
    (heven : even % 2 = 0) :
    roundHalfEven num den < even ↔ 2 * num < (2 * even - 1) * den := by
  obtain ⟨odd, rfl⟩ : ∃ odd, even = odd + 1 := ⟨even - 1, by omega⟩
  have hnum := Nat.div_add_mod num den
  have hrem := Nat.mod_lt num hden
  have hbound : (2 * (odd + 1) - 1) * den = 2 * (den * odd) + den := by
    have hpred : 2 * (odd + 1) - 1 = 2 * odd + 1 := by omega
    rw [hpred]
    ring
  rw [hbound]
  unfold roundHalfEven
  generalize num / den = quotient at hnum ⊢
  generalize num % den = remainder at hnum hrem ⊢
  subst hnum
  rcases Nat.lt_trichotomy quotient odd with hlt | rfl | hgt
  · have hstep : den * quotient + den ≤ den * odd := Nat.mul_le_mul_left den hlt
    refine iff_of_true ?_ (by omega)
    split_ifs <;> omega
  · -- just below the even natural the remainder decides
    split_ifs <;> omega
  · have hstep : den * odd + den ≤ den * quotient := Nat.mul_le_mul_left den hgt
    refine iff_of_false ?_ (by omega)
    split_ifs <;> omega

theorem roundHalfEven_le {num den bound : Nat} (h : num < bound * den) :
    roundHalfEven num den ≤ bound := by
  have hquotient : num / den < bound := Nat.div_lt_of_lt_mul (by rwa [Nat.mul_comm])
  unfold roundHalfEven
  split_ifs <;> omega

theorem le_roundHalfEven {num den bound : Nat} (hden : 0 < den) (h : bound * den ≤ num) :
    bound ≤ roundHalfEven num den := by
  have hquotient : bound ≤ num / den := (Nat.le_div_iff_mul_le hden).mpr h
  unfold roundHalfEven
  split_ifs <;> omega

/-! ## Section 2: Quotients -/

/-- The least value that is rounded to infinity. -/
def overflow : Nat := (2 ^ 54 - 1) * 2 ^ 970

/-- Counting in units does not change which of two values is less. -/
theorem mul_unitsPerOne_lt_iff {power power' : Nat} (h : power' = power + 1074)
    (num factor den : Nat) :
    num * unitsPerOne < factor * 2 ^ power' * den ↔ num < factor * 2 ^ power * den := by
  have hcancel (places : Nat) :
      num * (1 <<< places) < factor * 2 ^ (power + places) * den
        ↔ num < factor * 2 ^ power * den := by
    have hsplit : factor * 2 ^ (power + places) * den = factor * 2 ^ power * den * 2 ^ places := by
      rw [Nat.pow_add]
      ring
    rw [Nat.one_shiftLeft, hsplit]
    exact Nat.mul_lt_mul_right (Nat.two_pow_pos places)
  rw [h]
  exact hcancel 1074

/-- A quotient lies in the range that 53 bits cover at its scale, and in the upper half of this,
    unless the scale is the smallest one. -/
theorem bounds_of_scale {num den scale : Nat} (hden : 0 < den)
    (hscale : (num / den).log2 - 52 = scale) :
    num < 2 ^ 53 * (2 ^ scale * den) ∧ (0 < scale → 2 ^ 52 * (2 ^ scale * den) ≤ num) := by
  rw [← Nat.mul_assoc, ← Nat.mul_assoc, ← Nat.pow_add, ← Nat.pow_add]
  constructor
  · rw [← Nat.div_lt_iff_lt_mul hden]
    refine Nat.lt_of_lt_of_le Nat.lt_log2_self ?_
    exact Nat.pow_le_pow_right (by decide) (by omega)
  · intro hpos
    have hne : num / den ≠ 0 := by
      intro hzero
      rw [hzero, Nat.log2_zero] at hscale
      omega
    rw [← Nat.le_div_iff_mul_le hden]
    refine le_trans ?_ (Nat.log2_self_le hne)
    exact Nat.pow_le_pow_right (by decide) (by omega)

/-- A quotient is rounded to a finite magnitude when it is less than the least value that
    overflows. -/
theorem nearest_lt_infiniteMagnitude_iff {num den : Nat} (hden : 0 < den) :
    nearest num den < infiniteMagnitude ↔ num < overflow * den := by
  have hinfinite : infiniteMagnitude = 2047 * 2 ^ 52 := Nat.shiftLeft_eq 2047 52
  have hoverflow : num < overflow * den ↔ num * unitsPerOne < (2 ^ 54 - 1) * (2 ^ 2044 * den) := by
    rw [← Nat.mul_assoc]
    exact (mul_unitsPerOne_lt_iff (by omega) num (2 ^ 54 - 1) den).symm
  have hdouble {power power' : Nat} (h : power' = power + 1) :
      2 ^ power' * den = 2 * (2 ^ power * den) := by
    rw [h, Nat.pow_succ]
    ring
  have hmono {power power' : Nat} (h : power ≤ power') : 2 ^ power * den ≤ 2 ^ power' * den :=
    Nat.mul_le_mul_right den (Nat.pow_le_pow_right (by decide) h)
  rw [hoverflow]
  unfold nearest
  dsimp only
  generalize num * unitsPerOne = scaled
  generalize hscale : (scaled / den).log2 - 52 = scale
  obtain ⟨hupper, hlower⟩ := bounds_of_scale hden hscale
  have hden' : 0 < 2 ^ scale * den := Nat.mul_pos (Nat.two_pow_pos scale) hden
  rw [min_lt_iff, or_iff_left (Nat.lt_irrefl _), Nat.shiftLeft_eq, Nat.shiftLeft_eq,
    Nat.mul_comm den, hinfinite]
  -- the largest finite magnitudes have the scale 2045: only there does rounding decide
  rcases Nat.lt_trichotomy scale 2045 with hlt | rfl | hgt
  · have hround := roundHalfEven_le hupper
    have hle := hmono (Nat.le_of_lt_succ hlt)
    exact iff_of_true (by omega) (by omega)
  · have hround : roundHalfEven scaled (2 ^ 2045 * den) < 2 ^ 53
        ↔ 2 * scaled < (2 * 2 ^ 53 - 1) * (2 ^ 2045 * den) :=
      roundHalfEven_lt_iff hden' (by decide) (by decide)
    have htwice : 2 ^ 2045 * den = 2 * (2 ^ 2044 * den) := hdouble (by omega)
    omega
  · have hround := le_roundHalfEven hden' (hlower (by omega))
    have hle := hmono (Nat.succ_le_of_lt hgt)
    have htwice : 2 ^ 2045 * den = 2 * (2 ^ 2044 * den) := hdouble (by omega)
    have htwice' : 2 ^ 2046 * den = 2 * (2 ^ 2045 * den) := hdouble (by omega)
    exact iff_of_false (by omega) (by omega)

/-! ## Section 3: Decimals -/

theorem overflow_pos : 0 < overflow := by decide +kernel

theorem overflow_le : overflow ≤ 10 ^ 400 := by decide +kernel

/-- A decimal is rounded to a finite magnitude when its value is less than the least one that
    overflows. -/
theorem nearestDecimal_lt_infiniteMagnitude_iff (digits : Nat) (power : Int) :
    nearestDecimal digits power < infiniteMagnitude ↔ (digits : ℚ) * 10 ^ power < overflow := by
  have hpos : (1 : ℚ) ≤ overflow := by exact_mod_cast overflow_pos
  unfold nearestDecimal
  by_cases hzero : digits = 0
  · rw [if_pos hzero, hzero]
    refine iff_of_true (by decide) ?_
    rw [Nat.cast_zero, zero_mul]
    linarith
  rw [if_neg hzero]
  by_cases hlarge : 400 < power
  · -- one digit is enough to overflow
    rw [if_pos hlarge]
    refine iff_of_false (Nat.lt_irrefl _) (not_lt.mpr ?_)
    have hdigits : (1 : ℚ) ≤ digits := by exact_mod_cast Nat.pos_of_ne_zero hzero
    calc (overflow : ℚ) ≤ 10 ^ (400 : ℕ) := by exact_mod_cast overflow_le
      _ = 10 ^ (400 : ℤ) := rfl
      _ ≤ 10 ^ power := zpow_le_zpow_right₀ (by norm_num) hlarge.le
      _ ≤ digits * 10 ^ power := le_mul_of_one_le_left (by positivity) hdigits
  rw [if_neg hlarge]
  by_cases hsmall : power + digits.log2 + 1 < -400
  · -- there are not enough digits for one
    rw [if_pos hsmall]
    refine iff_of_true (by decide) ?_
    have hdigits : (digits : ℚ) < 10 ^ (digits.log2 + 1) := by
      have hlt : digits < 10 ^ (digits.log2 + 1) :=
        Nat.lt_of_lt_of_le Nat.lt_log2_self (Nat.pow_le_pow_left (by decide) _)
      exact_mod_cast hlt
    calc (digits : ℚ) * 10 ^ power < 10 ^ (digits.log2 + 1) * 10 ^ power :=
          mul_lt_mul_of_pos_right hdigits (by positivity)
      _ = 10 ^ (((digits.log2 + 1 : ℕ) : ℤ) + power) := by
          rw [zpow_add₀ (by norm_num), zpow_natCast]
      _ ≤ 10 ^ (0 : ℤ) := zpow_le_zpow_right₀ (by norm_num) (by omega)
      _ = 1 := zpow_zero 10
      _ ≤ overflow := hpos
  rw [if_neg hsmall]
  cases power with
  | ofNat p =>
    show nearest (digits * powerOfTen p) 1 < infiniteMagnitude ↔ _
    rw [nearest_lt_infiniteMagnitude_iff Nat.one_pos, Nat.mul_one, Int.ofNat_eq_natCast,
      zpow_natCast]
    show digits * 10 ^ p < overflow ↔ _
    exact_mod_cast Iff.rfl
  | negSucc p =>
    show nearest digits (powerOfTen (p + 1)) < infiniteMagnitude ↔ _
    rw [nearest_lt_infiniteMagnitude_iff (powerOfTen_pos _), zpow_negSucc, ← div_eq_mul_inv,
      div_lt_iff₀ (by positivity)]
    show digits < overflow * 10 ^ (p + 1) ↔ _
    exact_mod_cast Iff.rfl

namespace Numeral

/-- The exact value. -/
def value (n : Numeral) : ℚ :=
  digitsValue (n.whole ++ n.fraction.getD []) * 10 ^ n.power

/-- A numeral is read as a finite number when its value is less than the least one that
    overflows. -/
theorem isFinite_toFloat_iff (n : Numeral) : isFinite n.toFloat = true ↔ n.value < overflow := by
  have hle : n.magnitude ≤ infiniteMagnitude := nearestDecimal_le _ _
  rw [isFinite, toFloat, magnitude_ofMagnitude false hle, decide_eq_true_eq]
  exact nearestDecimal_lt_infiniteMagnitude_iff _ _

end Numeral

end Worksheet.Number

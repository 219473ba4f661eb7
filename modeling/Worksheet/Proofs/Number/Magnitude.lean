import Mathlib
import Worksheet.Number.Shortest

/-! # Magnitudes and the numbers that have them

    A magnitude is kept by the number that is made of it, and if it is finite it is what rounding
    makes of its own exact value. So a magnitude may be written as any decimal that rounds to it,
    and the shortest one is such a decimal.

    - `magnitude_ofMagnitude`, `isNegative_ofMagnitude`: the parts of a number.
    - `nearest_eq`: an exact value is rounded to its own magnitude.
    - `nearestDecimal_shortest`: the shortest decimal of a magnitude reads back.
-/

namespace Worksheet.Number

/-! ## Section 1: Bits -/

/-- The bits of a number are kept, unless it is undefined. -/
theorem toBits_ofBits {bits : UInt64} (h : bits.toNat % (1 <<< 63) ≤ infiniteMagnitude) :
    (Float.ofBits bits).toBits = bits := by
  -- only the bits of an undefined number are exchanged: the largest exponent, and more than that
  have hdefined :
      ¬@Float.Model.UnpackedFloat.isNaNBits .binary64 bits.toBitVec = true := by
    intro hnan
    obtain ⟨hexponent, hmantissa⟩ := of_decide_eq_true hnan
    have hlarge : bits.toNat >>> 52 % 2048 = 2047 := by
      simpa [Float.Model.UnpackedFloat.unpackExponent, BitVec.extractLsb, BitVec.extractLsb']
        using congrArg BitVec.toNat hexponent
    have hmore : bits.toNat % 2 ^ 52 ≠ 0 := by
      intro hzero
      refine hmantissa (BitVec.eq_of_toNat_eq ?_)
      simpa [Float.Model.UnpackedFloat.unpackMantissa, BitVec.extractLsb, BitVec.extractLsb']
        using hzero
    simp only [infiniteMagnitude, Nat.shiftRight_eq_div_pow, Nat.shiftLeft_eq] at h hlarge
    omega
  have hpack := @Float.Model.UnpackedFloat.pack_unpack .binary64 bits.toBitVec
  rw [if_neg hdefined] at hpack
  exact UInt64.toBitVec_inj.mp hpack

theorem toNat_toBits_ofMagnitude (negative : Bool) {m : Nat} (h : m ≤ infiniteMagnitude) :
    (ofMagnitude negative m).toBits.toNat = if negative then (1 <<< 63) + m else m := by
  have hbound : (if negative then (1 <<< 63) + m else m) < 2 ^ 64 := by
    simp only [infiniteMagnitude, Nat.shiftLeft_eq] at h ⊢
    split <;> omega
  have hword : (UInt64.ofNat (if negative then (1 <<< 63) + m else m)).toNat
      = if negative then (1 <<< 63) + m else m := by
    rw [UInt64.toNat_ofNat', Nat.mod_eq_of_lt hbound]
  have hdefined : (UInt64.ofNat (if negative then (1 <<< 63) + m else m)).toNat % (1 <<< 63)
      ≤ infiniteMagnitude := by
    rw [hword]
    simp only [infiniteMagnitude, Nat.shiftLeft_eq] at h ⊢
    split <;> omega
  unfold ofMagnitude
  rw [toBits_ofBits hdefined, hword]

theorem magnitude_ofMagnitude (negative : Bool) {m : Nat} (h : m ≤ infiniteMagnitude) :
    magnitude (ofMagnitude negative m) = m := by
  unfold magnitude
  rw [toNat_toBits_ofMagnitude negative h]
  simp only [infiniteMagnitude, Nat.shiftLeft_eq] at h ⊢
  split <;> omega

theorem isNegative_ofMagnitude (negative : Bool) {m : Nat} (h : m ≤ infiniteMagnitude) :
    isNegative (ofMagnitude negative m) = negative := by
  unfold isNegative
  rw [toNat_toBits_ofMagnitude negative h]
  simp only [infiniteMagnitude, Nat.shiftLeft_eq] at h ⊢
  cases negative with
  | false => simpa using by omega
  | true => simp

/-- A number is made of its sign and its magnitude. -/
theorem ofMagnitude_magnitude (x : Float) : ofMagnitude (isNegative x) (magnitude x) = x := by
  have hbits : (if isNegative x then (1 <<< 63) + magnitude x else magnitude x)
      = x.toBits.toNat := by
    have hlt : x.toBits.toNat < 2 ^ 64 := x.toBits.toNat_lt
    unfold isNegative magnitude
    by_cases hsign : 1 <<< 63 ≤ x.toBits.toNat
    · rw [if_pos (decide_eq_true hsign)]
      simp only [Nat.shiftLeft_eq] at hsign ⊢
      omega
    · rw [if_neg (by simpa using hsign)]
      simp only [Nat.shiftLeft_eq] at hsign ⊢
      omega
  unfold ofMagnitude
  rw [hbits, UInt64.ofNat_toNat, Float.ofBits_toBits]

/-! ## Section 2: Exact values -/

/-- The significand of a finite magnitude: its value is the significand shifted by the scale. -/
def significand (m : Nat) : Nat := m - (scale m <<< 52)

theorem units_eq (m : Nat) : units m = significand m <<< scale m := rfl

theorem scale_shiftLeft_add_significand (m : Nat) : (scale m <<< 52) + significand m = m := by
  have hle : (m >>> 52 - 1) <<< 52 ≤ m := by
    simp only [Nat.shiftRight_eq_div_pow, Nat.shiftLeft_eq]
    omega
  unfold significand scale
  omega

/-- The scale can be told from the value: with it the significand takes 53 bits, or less at the
    smallest scale. -/
theorem log2_units (m : Nat) : (units m).log2 - 52 = scale m := by
  have hunits : units m = significand m * 2 ^ scale m := by rw [units_eq, Nat.shiftLeft_eq]
  by_cases hsmall : m >>> 52 = 0
  · have hscale : scale m = 0 := by rw [scale, hsmall]
    have hm : significand m = m := by
      have hsum := scale_shiftLeft_add_significand m
      rw [hscale, Nat.zero_shiftLeft] at hsum
      omega
    rw [units_eq, hscale, hm, Nat.shiftLeft_zero]
    have hlt : m < 2 ^ 52 := by
      simp only [Nat.shiftRight_eq_div_pow] at hsmall
      omega
    by_cases hzero : m = 0
    · simp [hzero]
    · have hlog := (Nat.log2_lt hzero).mpr hlt
      omega
  · have hbounds : 2 ^ 52 ≤ significand m ∧ significand m < 2 ^ 53 := by
      unfold significand scale
      simp only [Nat.shiftRight_eq_div_pow, Nat.shiftLeft_eq] at hsmall ⊢
      omega
    have hlower : 2 ^ (52 + scale m) ≤ units m := by
      rw [hunits, Nat.pow_add]
      exact Nat.mul_le_mul_right _ hbounds.1
    have hupper : units m < 2 ^ (52 + scale m + 1) := by
      rw [hunits, Nat.add_right_comm, Nat.pow_add]
      exact Nat.mul_lt_mul_of_pos_right hbounds.2 (Nat.two_pow_pos _)
    have hpos : units m ≠ 0 := by
      have := Nat.two_pow_pos (52 + scale m)
      omega
    have hlog := (Nat.log2_eq_iff hpos).mpr ⟨hlower, hupper⟩
    omega

/-- A whole quotient is not changed by rounding. -/
theorem roundHalfEven_mul (n : Nat) {den : Nat} (hden : 0 < den) :
    roundHalfEven (n * den) den = n := by
  unfold roundHalfEven
  rw [Nat.mul_mod_left, Nat.mul_div_cancel n hden, if_pos (by omega)]

/-- A quotient that is the exact value of a magnitude is rounded to this magnitude. -/
theorem nearest_eq {num den m : Nat} (hden : 0 < den) (hm : m ≤ infiniteMagnitude)
    (hvalue : num * unitsPerOne = units m * den) : nearest num den = m := by
  have hround : roundHalfEven (units m * den) (den <<< scale m) = significand m := by
    have hsplit : units m * den = significand m * (den <<< scale m) := by
      rw [units_eq, Nat.shiftLeft_eq, Nat.shiftLeft_eq]
      ring
    rw [hsplit]
    refine roundHalfEven_mul _ ?_
    rw [Nat.shiftLeft_eq]
    exact Nat.mul_pos hden (Nat.two_pow_pos _)
  unfold nearest
  dsimp only
  rw [hvalue, Nat.mul_div_cancel _ hden, log2_units, hround, scale_shiftLeft_add_significand,
    Nat.min_eq_left hm]

/-! ## Section 3: Decimals that read back -/

theorem nearestDecimal_le (digits : Nat) (power : Int) :
    nearestDecimal digits power ≤ infiniteMagnitude := by
  unfold nearestDecimal
  split
  · exact Nat.zero_le _
  · split
    · exact Nat.le_refl _
    · split
      · exact Nat.zero_le _
      · cases power <;> exact Nat.min_le_right _ _

/-- What a decimal that rounds to a positive finite magnitude is not: zero, or too large. -/
theorem digits_pos_of_nearestDecimal {digits m : Nat} {power : Int} (hpos : 0 < m)
    (hfinite : m < infiniteMagnitude) (h : nearestDecimal digits power = m) :
    digits ≠ 0 ∧ power ≤ 400 := by
  constructor
  · rintro rfl
    unfold nearestDecimal at h
    rw [if_pos rfl] at h
    omega
  · by_contra hlarge
    unfold nearestDecimal at h
    split at h
    · omega
    · rw [if_pos (by omega)] at h
      omega

theorem powerOfTen_pos (p : Nat) : 0 < powerOfTen p :=
  Nat.pow_pos (by decide)

/-- A positive power of ten may as well be multiplied with the digits. -/
theorem nearestDecimal_mul_powerOfTen {digits m p : Nat} (hpos : 0 < m)
    (hfinite : m < infiniteMagnitude) (h : nearestDecimal digits (.ofNat p) = m) :
    nearestDecimal (digits * powerOfTen p) 0 = m := by
  obtain ⟨hdigits, hp⟩ := digits_pos_of_nearestDecimal hpos hfinite h
  have hproduct : digits * powerOfTen p ≠ 0 :=
    Nat.mul_ne_zero hdigits (powerOfTen_pos p).ne'
  have hnotsmall : ¬(Int.ofNat p) + digits.log2 + 1 < -400 := by
    have : Int.ofNat p = (p : Int) := rfl
    omega
  unfold nearestDecimal at h ⊢
  rw [if_neg hdigits, if_neg (by omega), if_neg hnotsmall] at h
  rw [if_neg hproduct, if_neg (by omega), if_neg (by omega)]
  have hone : powerOfTen 0 = 1 := rfl
  show nearest (digits * powerOfTen p * powerOfTen 0) 1 = m
  rw [hone, Nat.mul_one]
  exact h

theorem units_ne_zero {m : Nat} (hpos : 0 < m) : units m ≠ 0 := by
  intro hzero
  have hscale : scale m = 0 := by rw [← log2_units m, hzero, Nat.log2_zero]
  have hsum := scale_shiftLeft_add_significand m
  rw [units_eq, hscale, Nat.shiftLeft_zero] at hzero
  rw [hscale, hzero, Nat.zero_shiftLeft] at hsum
  omega

/-- So many fives make a number that is not taken for zero, whatever power of ten is split off. -/
theorem le_log2_mul_pow_five {n : Nat} (hn : n ≠ 0) (k : Nat) : k ≤ (n * Nat.pow 5 k).log2 := by
  have hne : n * Nat.pow 5 k ≠ 0 := Nat.mul_ne_zero hn (Nat.pow_pos (by decide)).ne'
  rw [Nat.le_log2 hne]
  calc 2 ^ k ≤ 5 ^ k := Nat.pow_le_pow_left (by decide) k
    _ ≤ n * Nat.pow 5 k := Nat.le_mul_of_pos_left _ (Nat.pos_of_ne_zero hn)

theorem mul_pow_five_shiftLeft (n k : Nat) :
    n * Nat.pow 5 k * (1 <<< k) = n * powerOfTen k := by
  have hten : powerOfTen k = Nat.pow 5 k * 2 ^ k := by
    show 10 ^ k = 5 ^ k * 2 ^ k
    rw [← Nat.mul_pow]
  rw [hten, Nat.one_shiftLeft, Nat.mul_assoc]

/-- A binary fraction is a decimal fraction with as many places, and read as such it is rounded to
    its own magnitude. -/
theorem nearestDecimal_mul_pow_five {m : Nat} (hpos : 0 < m) (hfinite : m < infiniteMagnitude)
    (k : Nat) (hone : unitsPerOne = 1 <<< (k + 1)) :
    nearestDecimal (units m * Nat.pow 5 (k + 1)) (.negSucc k) = m := by
  have hlog := le_log2_mul_pow_five (units_ne_zero hpos) (k + 1)
  have hvalue := mul_pow_five_shiftLeft (units m) (k + 1)
  rw [← hone] at hvalue
  generalize units m * Nat.pow 5 (k + 1) = digits at hlog hvalue ⊢
  have hne : digits ≠ 0 := by
    rintro rfl
    simp at hlog
  unfold nearestDecimal
  rw [if_neg hne, if_neg (by omega), if_neg (by omega)]
  exact nearest_eq (powerOfTen_pos _) hfinite.le hvalue

/-- The exact value of a positive magnitude, written as a decimal, reads back. -/
theorem nearestDecimal_exactDecimal {m : Nat} (hpos : 0 < m) (hfinite : m < infiniteMagnitude) :
    nearestDecimal (exactDecimal m).digits (exactDecimal m).power = m := by
  have hplaces : 1074 = 1073 + 1 := rfl
  unfold exactDecimal
  rw [hplaces]
  exact nearestDecimal_mul_pow_five hpos hfinite 1073 rfl

/-- A neighbour on a grid is only taken if it reads back. -/
theorem nearestDecimal_of_neighbour? {m digits : Nat} {power : Int}
    (h : neighbour? m power = some digits) : nearestDecimal digits power = m := by
  unfold neighbour? at h
  dsimp only at h
  split at h
  · next hlower =>
    split at h
    · next hupper =>
      cases h
      exact hupper.1
    · cases h
      exact hlower
  · split at h
    · next hupper =>
      cases h
      exact hupper
    · cases h

theorem nearestDecimal_searchGrids {m : Nat} (hpos : 0 < m) (hfinite : m < infiniteMagnitude)
    (count : Nat) (power : Int) :
    nearestDecimal (searchGrids m count power).digits (searchGrids m count power).power = m := by
  induction count generalizing power with
  | zero => exact nearestDecimal_exactDecimal hpos hfinite
  | succ count ih =>
    rw [searchGrids]
    split
    · next digits hdigits => exact nearestDecimal_of_neighbour? hdigits
    · exact ih (power - 1)

/-- The shortest decimal of a positive magnitude reads back. -/
theorem nearestDecimal_shortest {m : Nat} (hpos : 0 < m) (hfinite : m < infiniteMagnitude) :
    nearestDecimal (shortest m).digits (shortest m).power = m :=
  nearestDecimal_searchGrids hpos hfinite 24 (coarsestPower m)

end Worksheet.Number

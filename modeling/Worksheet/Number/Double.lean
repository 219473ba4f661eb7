/-! # Binary64 numbers as naturals

    A number of the sheet is a binary64 value. This module relates its bits to exact arithmetic
    on naturals: the bits below the sign count magnitudes in order, and a finite magnitude is a
    whole number of *units*, the least positive value `2 ^ -1074`.

    - `units` says how many units a magnitude is.
    - `nearest` goes back: the magnitude nearest to a quotient of naturals.
-/

namespace Worksheet.Number

/-! ## Section 1: Sign and magnitude -/

/-- The number with the given sign and magnitude bits. -/
def ofMagnitude (negative : Bool) (magnitude : Nat) : Float :=
  Float.ofBits (UInt64.ofNat (if negative then (1 <<< 63) + magnitude else magnitude))

/-- Whether the sign bit is set, as it is for negative zero too. -/
def isNegative (x : Float) : Bool :=
  1 <<< 63 ≤ x.toBits.toNat

/-- The bits below the sign, as a natural. -/
def magnitude (x : Float) : Nat :=
  x.toBits.toNat % (1 <<< 63)

/-- The magnitude bits of infinity, the least that are not finite. -/
def infiniteMagnitude : Nat := 2047 <<< 52

/-- Whether `x` is neither infinite nor undefined. -/
def isFinite (x : Float) : Bool :=
  magnitude x < infiniteMagnitude

/-- The undefined number. -/
def undefined : Float := Float.ofBits 0x7FF8000000000000

/-! ## Section 2: Units -/

/-- How many units one is: the least positive number is `1 / unitsPerOne`. -/
def unitsPerOne : Nat := 1 <<< 1074

/-- A finite magnitude is a significand shifted left by this many places, counted in units. -/
def scale (magnitude : Nat) : Nat :=
  (magnitude >>> 52) - 1

/-- The value of a finite magnitude, counted in units. -/
def units (magnitude : Nat) : Nat :=
  (magnitude - (scale magnitude <<< 52)) <<< scale magnitude

/-! ## Section 3: Rounding -/

/-- The natural nearest to `num / den`; a half goes to the even neighbour. -/
def roundHalfEven (num den : Nat) : Nat :=
  if 2 * (num % den) < den then num / den
  else if den < 2 * (num % den) then num / den + 1
  else num / den + num / den % 2

/-- The magnitude nearest to `num / den`; a half goes to the even neighbour, and what is too large
    for a finite number becomes infinite.

    With 53 significant bits kept, `scale <<< 52` plus the rounded significand are the bits of the
    result, also where rounding carries into the next power of two. -/
def nearest (num den : Nat) : Nat :=
  let scaled := num * unitsPerOne
  let scale := (scaled / den).log2 - 52
  min ((scale <<< 52) + roundHalfEven scaled (den <<< scale)) infiniteMagnitude

/-- The natural `10 ^ p`. -/
def powerOfTen (p : Nat) : Nat := Nat.pow 10 p

/-- The magnitude nearest to `digits * 10 ^ power`. Powers so large or so small that the result
    can only be infinite or zero are settled without being computed. -/
def nearestDecimal (digits : Nat) (power : Int) : Nat :=
  if digits = 0 then 0
  else if 400 < power then infiniteMagnitude
  else if power + digits.log2 + 1 < -400 then 0
  else match power with
    | .ofNat p => nearest (digits * powerOfTen p) 1
    | .negSucc p => nearest digits (powerOfTen (p + 1))

end Worksheet.Number

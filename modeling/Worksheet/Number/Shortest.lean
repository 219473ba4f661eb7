import Worksheet.Number.Numeral

/-! # Numbers as text

    A number is written with the fewest digits that read back as the same number, always
    positionally and never with a power of ten; whole numbers have no point.

    The digits lie on a *grid*, the multiples of a power of ten. On each grid only the two
    neighbours of the value can be the nearest point, so the search tries those two, from coarse
    grids to fine ones, and takes the first grid with a neighbour that reads back.
-/

namespace Worksheet.Number

/-! ## Section 1: Choosing the digits -/

/-- The decimal `digits * 10 ^ power`. -/
structure Decimal where
  digits : Nat
  power : Int
  deriving DecidableEq, Repr

/-- The quotient of naturals that is the value of a magnitude divided by `10 ^ power`. -/
def onGrid (magnitude : Nat) : Int → Nat × Nat
  | .ofNat p => (units magnitude, unitsPerOne * powerOfTen p)
  | .negSucc p => (units magnitude * powerOfTen (p + 1), unitsPerOne)

/-- The neighbour of a magnitude on the grid of `10 ^ power` that reads back. When both do it is
    the nearer one, and on a tie the upper one. -/
def neighbour? (magnitude : Nat) (power : Int) : Option Nat :=
  let (num, den) := onGrid magnitude power
  let lower := num / den
  let upper := lower + 1
  if nearestDecimal lower power = magnitude then
    if nearestDecimal upper power = magnitude ∧ (lower + upper) * den ≤ 2 * num then some upper
    else some lower
  else if nearestDecimal upper power = magnitude then some upper
  else none

/-- The exact decimal value of a finite magnitude. -/
def exactDecimal (magnitude : Nat) : Decimal :=
  ⟨units magnitude * Nat.pow 5 1074, -1074⟩

/-- Tries `count` grids, each ten times as fine as the one before; if none has a point that reads
    back, the exact value does. -/
def searchGrids (magnitude : Nat) : (count : Nat) → (power : Int) → Decimal
  | 0, _ => exactDecimal magnitude
  | count + 1, power =>
    match neighbour? magnitude power with
    | some digits => ⟨digits, power⟩
    | none => searchGrids magnitude count (power - 1)

/-- A power of ten above the value of a positive magnitude, by at most a few places: the value is
    less than `2 ^ b`, and `30103 / 100000` is the decimal logarithm of two, rounded up. -/
def coarsestPower (magnitude : Nat) : Int :=
  let b : Int := (units magnitude).log2 + 1 - 1074
  b * 30103 / 100000 + 2

/-- The shortest decimal that reads back as a positive finite magnitude. Seventeen digits always
    suffice, and the search starts a few places above the first digit. -/
def shortest (magnitude : Nat) : Decimal :=
  searchGrids magnitude 24 (coarsestPower magnitude)

/-! ## Section 2: Laying the digits out -/

/-- A decimal in positional notation: zeros behind the digits, or a point that has at least one
    digit on either side. -/
def Decimal.positional (d : Decimal) : List Char :=
  let digits := Nat.toDigits 10 d.digits
  match d.power with
  | .ofNat p => digits ++ List.replicate p '0'
  | .negSucc p =>
    let padded := digits.leftpad (p + 2) '0'
    let whole := padded.length - (p + 1)
    padded.take whole ++ '.' :: padded.drop whole

/-- The text of a magnitude. -/
def magnitudeText (magnitude : Nat) : List Char :=
  if infiniteMagnitude < magnitude then "NaN".toList
  else if magnitude = infiniteMagnitude then "inf".toList
  else if magnitude = 0 then ['0']
  else (shortest magnitude).positional

/-- The text of a number. The undefined number has no sign; negative zero keeps its own. -/
def text (x : Float) : String :=
  if isNegative x ∧ magnitude x ≤ infiniteMagnitude then
    String.ofList ('-' :: magnitudeText (magnitude x))
  else String.ofList (magnitudeText (magnitude x))

end Worksheet.Number

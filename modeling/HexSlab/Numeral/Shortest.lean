import HexSlab.Numeral.Double

/-!
# The fewest digits that read back

Among the decimals that round to a given double, those with the fewest digits
are wanted, and of these the one nearest to the double; a tie goes up. For each
number of digits only the two neighbours of the value on the decimal grid have
to be tried: if any grid point rounds to the double, one of the two does.
-/

namespace HexSlab.Numeral

/-- A positive decimal `significand · 10 ^ exponent`. -/
structure Decimal where
  /-- The digits as one number. -/
  significand : Nat
  /-- Power of ten of the last digit. -/
  exponent : Int
  deriving DecidableEq

/-- The interval of values that round to a double, in units of a quarter of
its last place. -/
structure Rounding where
  /-- Lower end. -/
  low : Nat
  /-- The double itself. -/
  middle : Nat
  /-- Upper end. -/
  high : Nat
  /-- The ends themselves round to the double. -/
  closed : Bool
  /-- Power of two of the unit. -/
  exponent : Int

/-- The interval around a positive double. Below a power of two the next
double is only half as far away. -/
def Rounding.around (d : Dyadic) : Rounding where
  low :=
    if d.significand = twoTo storedBits ∧ leastExponent < d.exponent then 4 * d.significand - 1
    else 4 * d.significand - 2
  middle := 4 * d.significand
  high := 4 * d.significand + 2
  closed := d.significand % 2 = 0
  exponent := d.exponent - 2

/-- The power of ten with a natural exponent, and one for a negative one. -/
def tenPower (power : Int) : Nat := tenTo power.toNat

/-- The power of two with a natural exponent, and one for a negative one. -/
def twoPower (power : Int) : Nat := twoTo power.toNat

/-- The neighbour of the double on the grid of multiples of `10 ^ place` that
lies in the interval; of two such neighbours the nearer, and the upper one on a
tie. -/
def Rounding.onGrid? (r : Rounding) (place : Int) : Option Nat :=
  let scale := twoPower r.exponent * tenPower (-place)
  let unit := twoPower (-r.exponent) * tenPower place
  let below := r.middle * scale / unit
  let lowFits :=
    if r.closed then decide (r.low * scale ≤ below * unit)
    else decide (r.low * scale < below * unit)
  let highFits :=
    if r.closed then decide ((below + 1) * unit ≤ r.high * scale)
    else decide ((below + 1) * unit < r.high * scale)
  if lowFits && below != 0 then
    if highFits && decide ((2 * below + 1) * unit ≤ 2 * (r.middle * scale)) then some (below + 1)
    else some below
  else if highFits then some (below + 1)
  else none

/-- The decimal without its trailing zeros, of which at most `fuel` are dropped. -/
def Decimal.strip (fuel : Nat) (d : Decimal) : Decimal :=
  match fuel with
  | 0 => d
  | fuel + 1 =>
    if d.significand % 10 = 0 ∧ d.significand ≠ 0 then
      Decimal.strip fuel ⟨d.significand / 10, d.exponent + 1⟩
    else d

/-- The first grid with a hit, from coarse to fine, of a given number of grids. -/
def Rounding.search (r : Rounding) (place : Int) : Nat → Decimal
  | 0 => ⟨0, 0⟩
  | grids + 1 =>
    match r.onGrid? place with
    | some significand => ⟨significand, place⟩
    | none => r.search (place - 1) grids

/-- The most digits that telling doubles apart can take. -/
def mostDigits : Nat := 17

/-- The nearest of the shortest decimals that read back as a positive double. -/
def shortest (d : Dyadic) : Decimal :=
  ((Rounding.around d).search d.leadingPlace mostDigits).strip mostDigits

end HexSlab.Numeral

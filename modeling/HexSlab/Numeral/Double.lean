/-!
# Doubles as dyadic fractions

A finite double is a natural number times a power of two, with a sign. This
module takes a double apart, finds the decimal place of its leading digit and
rounds quotients of natural numbers; all digits are computed from these exact
values.
-/

namespace HexSlab.Numeral

/-- A positive fraction `significand · 2 ^ exponent`. -/
structure Dyadic where
  /-- The natural number that is scaled. -/
  significand : Nat
  /-- Power of two. -/
  exponent : Int
  deriving DecidableEq

/-- The value of a double. -/
inductive Double where
  /-- Not a number. -/
  | undefined
  /-- An infinite value. -/
  | infinite (negative : Bool)
  /-- A finite value with its sign, which zero has too. -/
  | finite (negative : Bool) (magnitude : Dyadic)
  deriving DecidableEq

/-- A power of two. -/
def twoTo (exponent : Nat) : Nat := Nat.pow 2 exponent

/-- A power of ten. -/
def tenTo (exponent : Nat) : Nat := Nat.pow 10 exponent

/-- The number of bits stored of a significand. -/
def storedBits : Nat := 52

/-- The power of two of the smallest doubles. -/
def leastExponent : Int := -1074

/-- A double taken apart into sign, significand and exponent. -/
def Double.ofFloat (value : Float) : Double :=
  let bits : Nat := value.toBits.toNat
  let negative := decide (twoTo 63 ≤ bits)
  let biased : Nat := bits / twoTo storedBits % twoTo 11
  let stored : Nat := bits % twoTo storedBits
  if biased = 2047 then
    if stored = 0 then .infinite negative else .undefined
  else if biased = 0 then .finite negative ⟨stored, leastExponent⟩
  else .finite negative ⟨stored + twoTo storedBits, leastExponent - 1 + (biased : Int)⟩

namespace Dyadic

/-- Numerator and denominator. -/
def ratio (d : Dyadic) : Nat × Nat :=
  if d.exponent < 0 then (d.significand, twoTo d.exponent.natAbs)
  else (d.significand * twoTo d.exponent.natAbs, 1)

/-- Numerator and denominator after multiplication by a power of ten. -/
def scaledRatio (d : Dyadic) (power : Int) : Nat × Nat :=
  let r := d.ratio
  if power < 0 then (r.1, r.2 * tenTo power.natAbs) else (r.1 * tenTo power.natAbs, r.2)

/-- The fraction is at least a power of ten. -/
def atLeastPower (d : Dyadic) (power : Int) : Bool :=
  let r := d.scaledRatio (-power)
  r.2 ≤ r.1

/-- The place of the leading decimal digit of a positive fraction: the largest
`k` with `10 ^ k` at most the fraction. The logarithm to base two gives it up
to one place, and a comparison settles the rest. -/
def leadingPlace (d : Dyadic) : Int :=
  let guess := Int.fdiv ((d.exponent + (Nat.log2 d.significand : Int)) * 30103) 100000
  if d.atLeastPower (guess + 1) then guess + 1
  else if d.atLeastPower guess then guess
  else guess - 1

end Dyadic

/-- The quotient rounded to the nearest natural number, a tie to the even one. -/
def roundDiv (numerator denominator : Nat) : Nat :=
  let quotient := numerator / denominator
  let twice := 2 * (numerator % denominator)
  if twice < denominator then quotient
  else if denominator < twice then quotient + 1
  else if quotient % 2 = 0 then quotient
  else quotient + 1

end HexSlab.Numeral

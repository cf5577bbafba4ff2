import HexSlab.Numeral.Word
import HexSlab.Text.Case

/-!
# Reading counts and numbers

A count is an unsigned number of 64 bits in decimal digits. A number is a
decimal with an optional point and exponent, or the name of an infinite or
undefined value. Every token is read as a whole: what is left over makes it
unreadable.
-/

namespace HexSlab.Numeral

/-- The value of a decimal digit. -/
def digitValue? (c : Char) : Option Nat :=
  if '0' ≤ c ∧ c ≤ '9' then some (c.toNat - '0'.toNat) else none

/-- A decimal digit. -/
def isDigit (c : Char) : Bool := (digitValue? c).isSome

/-- The natural number that a list of digits continues. -/
def digitsFrom (value : Nat) : List Char → Option Nat
  | [] => some value
  | c :: rest => (digitValue? c).bind fun digit => digitsFrom (10 * value + digit) rest

/-- The natural number written by a nonempty list of digits. -/
def digits? (text : List Char) : Option Nat :=
  if text.isEmpty then none else digitsFrom 0 text

/-- A count: an optional plus sign and digits, of a value that a word holds. -/
def count? (text : List Char) : Option Nat :=
  let magnitude :=
    match text with
    | '+' :: rest => rest
    | _ => text
  (digits? magnitude).filter (· < Word.limit)

/-- An integer: an optional sign and digits. -/
def integer? : List Char → Option Int
  | '+' :: rest => (digits? rest).map Int.ofNat
  | '-' :: rest => (digits? rest).map fun value => -Int.ofNat value
  | text => (digits? text).map Int.ofNat

/-- A decimal `significand · 10 ^ exponent`. -/
structure Scaled where
  /-- All digits, without the point. -/
  significand : Nat
  /-- Power of ten. -/
  exponent : Int
  deriving DecidableEq

/-- The decimal written by digits with an optional point among them. At least
one digit is needed, on either side of the point. -/
def pointed? (text : List Char) : Option Scaled :=
  let whole := text.takeWhile isDigit
  match text.dropWhile isDigit with
  | [] => (digits? whole).map fun value => ⟨value, 0⟩
  | '.' :: places => (digits? (whole ++ places)).map fun value => ⟨value, -(places.length : Int)⟩
  | _ => none

/-- The mark in front of an exponent. -/
def isExponentMark (c : Char) : Bool := c == 'e' || c == 'E'

/-- The decimal written by digits, an optional point and an optional exponent. -/
def decimal? (text : List Char) : Option Scaled :=
  let mantissa := text.takeWhile fun c => !isExponentMark c
  match text.dropWhile fun c => !isExponentMark c with
  | [] => pointed? mantissa
  | _ :: power =>
    (pointed? mantissa).bind fun scaled =>
      (integer? power).map fun shift => ⟨scaled.significand, scaled.exponent + shift⟩

/-- The double nearest to a decimal. A decimal beyond the range of doubles is
settled by the place of its leading digit, before any power is formed. -/
def Scaled.toFloat (scaled : Scaled) : Float :=
  let leading := scaled.exponent + ((Nat.toDigits 10 scaled.significand).length : Int)
  if scaled.significand = 0 ∨ leading < -400 then 0.0
  else if 400 < leading then 1.0 / 0.0
  else if scaled.exponent < 0 then
    Float.ofScientific scaled.significand true scaled.exponent.natAbs
  else Float.ofScientific scaled.significand false scaled.exponent.natAbs

/-- A number without a sign: a decimal, `inf`, `infinity` or `nan`, the names
in any case. -/
def magnitude? (text : List Char) : Option Float :=
  let name := text.map Text.lowerChar
  if name = "inf".toList ∨ name = "infinity".toList then some (1.0 / 0.0)
  else if name = "nan".toList then some (0.0 / 0.0)
  else (decimal? text).map Scaled.toFloat

/-- A number with an optional sign. -/
def number? : List Char → Option Float
  | '+' :: rest => magnitude? rest
  | '-' :: rest => (magnitude? rest).map fun value => -value
  | text => magnitude? text

end HexSlab.Numeral

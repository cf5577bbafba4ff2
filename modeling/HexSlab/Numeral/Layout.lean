import HexSlab.Numeral.Shortest

/-!
# Numbers as text

Three ways to write a double: all its shortest digits in positional notation,
the same digits with an exponent, and a fixed number of places after the point,
with or without an exponent. Fixed places are rounded from the exact value, a
tie to the even digit.
-/

namespace HexSlab.Numeral

/-- The texts of the values without digits. -/
def infiniteText : String := "inf"

/-- The text of the undefined value, which is written without a sign. -/
def undefinedText : String := "NaN"

/-- A minus sign, or nothing. -/
def signText (negative : Bool) : String := if negative then "-" else ""

/-- The decimal digits of a natural number. -/
def digitsOf (value : Nat) : List Char := Nat.toDigits 10 value

/-- The text of a double, given how the magnitude of a finite one is written. -/
def layout (magnitude : Dyadic → String) (value : Float) : String :=
  match Double.ofFloat value with
  | .undefined => undefinedText
  | .infinite negative => signText negative ++ infiniteText
  | .finite negative d => signText negative ++ magnitude d

/-- Digits with a point after the first, or alone if there is only one. -/
def pointAfterFirst : List Char → List Char
  | [] => []
  | [c] => [c]
  | c :: rest => c :: '.' :: rest

/-- Digits with the last `places` of them behind a point. -/
def pointBefore (places : Nat) (digits : List Char) : List Char :=
  if places = 0 then digits
  else
    let padded := List.replicate (places + 1 - digits.length) '0' ++ digits
    padded.take (padded.length - places) ++ '.' :: padded.drop (padded.length - places)

/-- A decimal in positional notation. -/
def Decimal.positional (d : Decimal) : String :=
  if d.exponent < 0 then
    String.ofList (pointBefore d.exponent.natAbs (digitsOf d.significand))
  else if d.significand = 0 then "0"
  else String.ofList (digitsOf d.significand ++ List.replicate d.exponent.natAbs '0')

/-- A decimal with one digit before the point and an exponent. -/
def Decimal.exponential (d : Decimal) : String :=
  let digits := digitsOf d.significand
  String.ofList (pointAfterFirst digits) ++ "e" ++
    toString (d.exponent + (digits.length : Int) - 1)

/-- The shortest digits of a nonnegative double; zero has the digit zero. -/
def shortestDecimal (d : Dyadic) : Decimal :=
  if d.significand = 0 then ⟨0, 0⟩ else shortest d

/-- The shortest digits that read back, in positional notation. -/
def plain : Float → String := layout fun d => (shortestDecimal d).positional

/-- The shortest digits that read back, with an exponent. -/
def exponential : Float → String := layout fun d => (shortestDecimal d).exponential

/-- A fixed number of places after the point. -/
def fixed (places : Nat) : Float → String :=
  layout fun d =>
    let r := d.scaledRatio places
    String.ofList (pointBefore places (digitsOf (roundDiv r.1 r.2)))

/-- A positive fraction rounded to one leading digit and a number of places
after it, kept with all its zeros. -/
def roundedPlaces (places : Nat) (d : Dyadic) : Decimal :=
  let last := d.leadingPlace - places
  let r := d.scaledRatio (-last)
  let significand := roundDiv r.1 r.2
  if significand = tenTo (places + 1) then ⟨tenTo places, last + 1⟩ else ⟨significand, last⟩

/-- One digit before the point, a fixed number of places after it, and an
exponent. -/
def scientific (places : Nat) : Float → String :=
  layout fun d =>
    if d.significand = 0 then
      String.ofList (pointAfterFirst (List.replicate (places + 1) '0')) ++ "e0"
    else (roundedPlaces places d).exponential

end HexSlab.Numeral

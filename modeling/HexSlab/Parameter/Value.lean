import HexSlab.Scalar
import HexSlab.Numeral.Layout

/-!
# Parameter values

A parameter holds a truth value, an integer, a real number or a text. Readers
ask for one kind; the only conversion between kinds is from integers to real
numbers.
-/

namespace HexSlab

/-- The value of a parameter, with real numbers of any scalar type. -/
inductive ParameterValue (R : Type) where
  /-- A truth value. -/
  | bool (value : Bool)
  /-- An integer. -/
  | int (value : Int)
  /-- A real number. -/
  | double (value : R)
  /-- A text. -/
  | text (value : String)

/-- Why a parameter cannot be read. -/
inductive ParameterError where
  /-- The parameter holds another kind of value than the reader asks for. -/
  | typeMismatch (key expected found : String)
  /-- The value has the right kind but is not acceptable. -/
  | invalidValue (key value reason : String)
  deriving DecidableEq

/-- The text of a parameter error. -/
def ParameterError.message : ParameterError → String
  | .typeMismatch key expected found =>
    "Parameter '" ++ key ++ "' is a " ++ found ++ ", expected a " ++ expected
  | .invalidValue key value reason =>
    "Invalid value " ++ value ++ " for parameter '" ++ key ++ "': " ++ reason

namespace ParameterValue

variable {R : Type}

/-- The name of the kind of a value. -/
def kind : ParameterValue R → String
  | .bool _ => "bool"
  | .int _ => "int"
  | .double _ => "double"
  | .text _ => "string"

/-- A truth value. -/
def asBool (key : String) : ParameterValue R → Except ParameterError Bool
  | .bool value => .ok value
  | other => .error (.typeMismatch key "bool" other.kind)

/-- An integer. -/
def asInt (key : String) : ParameterValue R → Except ParameterError Int
  | .int value => .ok value
  | other => .error (.typeMismatch key "int" other.kind)

/-- A count: an integer that is not negative. -/
def asCount (key : String) : ParameterValue R → Except ParameterError Nat
  | .int value =>
    if 0 ≤ value then .ok value.toNat
    else .error (.invalidValue key (toString value) "expected a non-negative integer")
  | other => .error (.typeMismatch key "int" other.kind)

/-- A real number; an integer is taken as the nearest one. -/
def asDouble [Scalar R] (key : String) : ParameterValue R → Except ParameterError R
  | .double value => .ok value
  | .int value => .ok (Scalar.ofInt value)
  | other => .error (.typeMismatch key "double" other.kind)

/-- A text. -/
def asText (key : String) : ParameterValue R → Except ParameterError String
  | .text value => .ok value
  | other => .error (.typeMismatch key "string" other.kind)

/-- A value as it is shown: real numbers with an exponent, texts in quotes. -/
def describe : ParameterValue Float → String
  | .bool value => toString value
  | .int value => toString value
  | .double value => Numeral.exponential value
  | .text value => "\"" ++ value ++ "\""

end ParameterValue

end HexSlab

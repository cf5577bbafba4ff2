/-!
# What can be wrong with a mesh configuration

Errors name their cause; the wording is in one function. A sum of intervals that exceeds a
machine word is among them: it is no answer of the program, which stops there where
arithmetic is checked.
-/

namespace HexSlab

/-- The number of values that an option asks for. -/
inductive ValueCount where
  /-- A fixed number. -/
  | exactly (count : Nat)
  /-- One for each process of the run. -/
  | perProcess (count : Nat)
  /-- Any even number. -/
  | anyEven
  deriving DecidableEq

/-- The words for a number of values. -/
def ValueCount.describe : ValueCount → String
  | .exactly count => toString count
  | .perProcess count => toString count ++ " (one per process)"
  | .anyEven => "an even number of"

/-- Why a mesh cannot be configured. -/
inductive MeshError where
  /-- There are fewer intervals along Z than processes. -/
  | insufficientIntervals (intervals processes : Nat)
  /-- The interval counts are not three positive numbers. -/
  | invalidIntervals (text : String)
  /-- An option that needs values has none. -/
  | missingArgument (option : String)
  /-- An option has the wrong number of values. -/
  | wrongValueCount (option : String) (expected : ValueCount) (found : Nat)
  /-- A value of an option is not a number. -/
  | invalidNumber (option token : String)
  /-- There is no such axis. -/
  | invalidAxis (text : String)
  /-- A sum exceeds a machine word. This is no answer: the program stops. -/
  | overflow
  deriving DecidableEq

/-- The text of a mesh error. -/
def MeshError.message : MeshError → String
  | .insufficientIntervals intervals processes =>
    toString intervals ++ " intervals in Z cannot be split over " ++ toString processes ++
      " processes"
  | .invalidIntervals text =>
    "Invalid interval specification '" ++ text ++ "', expected IxJxK with positive integers"
  | .missingArgument option => "Option '" ++ option ++ "' requires an argument"
  | .wrongValueCount option expected found =>
    "Malformed '" ++ option ++ "' option: expected " ++ expected.describe ++
      " values, found " ++ toString found
  | .invalidNumber option token =>
    "Could not parse '" ++ token ++ "' in '" ++ option ++ "' option as a number"
  | .invalidAxis text =>
    "Invalid axis specification '" ++ text ++ "', valid options are 'x', 'y' or 'z'"
  | .overflow => "attempt to add with overflow"

/-- A block number that the mesh does not have. -/
structure BlockOutOfRange where
  /-- The number asked for. -/
  block : Nat
  /-- The number of blocks, which are numbered from one. -/
  count : Nat
  deriving DecidableEq

/-- The text for a block number out of range. -/
def BlockOutOfRange.message (e : BlockOutOfRange) : String :=
  "block " ++ toString e.block ++ " out of range, mesh has " ++ toString e.count ++ " blocks"

end HexSlab

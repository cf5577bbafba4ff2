import HexSlab.Attempt
import HexSlab.Parameter.List
import HexSlab.Text.Case

/-!
# Parameters of point relaxation

The settings of a relaxation and how they are read from a parameter list, one
after the other.
-/

namespace HexSlab

/-- The kind of a sweep over the unknowns. -/
inductive Sweep where
  /-- All unknowns at once, from the previous iterate. -/
  | jacobi
  /-- One unknown after the other, from the newest values. -/
  | gaussSeidel
  /-- A forward sweep and then a backward one. -/
  | symmetricGaussSeidel
  deriving DecidableEq

namespace Sweep

/-- The name of a kind of sweep. -/
def name : Sweep → String
  | .jacobi => "Jacobi"
  | .gaussSeidel => "Gauss-Seidel"
  | .symmetricGaussSeidel => "symmetric Gauss-Seidel"

/-- The kind of sweep with a given name or short name, in any case. The error
says which names there are. -/
def ofName (name : String) : Except String Sweep :=
  let word := Text.lower name
  if word = "jacobi" then .ok .jacobi
  else if word = "gauss-seidel" ∨ word = "gs" then .ok .gaussSeidel
  else if word = "symmetric gauss-seidel" ∨ word = "sgs" then .ok .symmetricGaussSeidel
  else .error ("unknown relaxation type '" ++ word ++
    "', expected 'Jacobi', 'Gauss-Seidel' or 'symmetric Gauss-Seidel'")

end Sweep

/-- The settings of a point relaxation. -/
structure RelaxationParams (R : Type) where
  /-- The kind of the sweeps. -/
  sweep : Sweep
  /-- The number of sweeps. -/
  sweeps : Nat
  /-- The factor of each correction. -/
  damping : R
  /-- Diagonal entries below this are replaced by it before they are inverted. -/
  minDiagonal : R
  /-- The start is zero instead of the given vector. -/
  zeroStart : Bool

namespace RelaxationParams

/-- What the keys of the relaxation begin with. -/
def space : String := "relaxation: "

/-- The key of the kind of sweep. -/
def sweepKey : String := "relaxation: type"

/-- The key of the number of sweeps. -/
def sweepsKey : String := "relaxation: sweeps"

/-- The key of the damping factor. -/
def dampingKey : String := "relaxation: damping factor"

/-- The key of the smallest diagonal entry. -/
def minDiagonalKey : String := "relaxation: min diagonal value"

/-- The key of the zero start. -/
def zeroStartKey : String := "relaxation: zero starting solution"

/-- All keys of the relaxation. -/
def keys : List String := [sweepKey, sweepsKey, dampingKey, minDiagonalKey, zeroStartKey]

variable {R : Type} [Scalar R]

/-- The settings that hold unless others are given. -/
def default : RelaxationParams R := ⟨.jacobi, 1, 1, 0, true⟩

/-- The kind of sweep that a list asks for. -/
def readSweep (list : ParameterList R) (present : Sweep) : Except ParameterError Sweep :=
  match list.read ParameterValue.asText sweepKey present.name with
  | .error error => .error error
  | .ok name =>
    match Sweep.ofName name with
    | .ok sweep => .ok sweep
    | .error reason => .error (.invalidValue sweepKey name reason)

/-- Replace the settings that a list has. -/
def update (list : ParameterList R) : Attempt (RelaxationParams R) ParameterError Unit := do
  Attempt.revise fun p => (readSweep list p.sweep).map
    fun value => { p with sweep := value }
  Attempt.revise fun p => (list.read ParameterValue.asCount sweepsKey p.sweeps).map
    fun value => { p with sweeps := value }
  Attempt.revise fun p => (list.read ParameterValue.asDouble dampingKey p.damping).map
    fun value => { p with damping := value }
  Attempt.revise fun p => (list.read ParameterValue.asDouble minDiagonalKey p.minDiagonal).map
    fun value => { p with minDiagonal := value }
  Attempt.revise fun p => (list.read ParameterValue.asBool zeroStartKey p.zeroStart).map
    fun value => { p with zeroStart := value }

/-- The warnings that a list which was read gives rise to. -/
def warnings (list : ParameterList R) : Journal := list.unrecognizedWarnings space keys

end RelaxationParams

end HexSlab

import HexSlab.Attempt
import HexSlab.Parameter.List
import HexSlab.Text.Case

/-!
# Parameters of the Chebyshev smoother

The settings of a polynomial smoother and how they are read from a parameter
list. They are read one after the other and replaced as they are read, so a
list with an unreadable entry still sets those before it.
-/

namespace HexSlab

/-- How the bounds of the spectrum are found. -/
inductive Estimation where
  /-- The largest eigenvalue is given. -/
  | given
  /-- The largest eigenvalue comes from the power method. -/
  | power
  /-- Both ends of the spectrum come from conjugate gradients. -/
  | cg
  deriving DecidableEq

namespace Estimation

/-- The word for an estimation. -/
def name : Estimation → String
  | .given => "none"
  | .power => "power"
  | .cg => "cg"

/-- The estimation with a given word, in any case. The error says which words
there are. -/
def ofName (name : String) : Except String Estimation :=
  let word := Text.lower name
  if word = "none" then .ok .given
  else if word = "power" then .ok .power
  else if word = "cg" then .ok .cg
  else .error ("unknown estimation method '" ++ word ++ "', expected 'none', 'power' or 'cg'")

end Estimation

/-- The settings of a Chebyshev smoother. -/
structure ChebyshevParams (R : Type) where
  /-- Ratio of the largest eigenvalue to the smallest that is damped. -/
  ratio : R
  /-- Smallest eigenvalue, which only tells the identity apart. -/
  lambdaMin : R
  /-- Largest eigenvalue. -/
  lambdaMax : R
  /-- Degree of the polynomial. -/
  degree : Nat
  /-- Diagonal entries below this are not inverted. -/
  minDiagonal : R
  /-- The start is zero instead of the given vector. -/
  zeroStart : Bool
  /-- How the bounds are found. -/
  estimation : Estimation
  /-- Iterations of an estimate. -/
  iterations : Nat

namespace ChebyshevParams

/-- What the keys of the smoother begin with. -/
def space : String := "chebyshev: "

/-- The key of the ratio. -/
def ratioKey : String := "chebyshev: ratio eigenvalue"

/-- The key of the smallest eigenvalue. -/
def lambdaMinKey : String := "chebyshev: min eigenvalue"

/-- The key of the largest eigenvalue. -/
def lambdaMaxKey : String := "chebyshev: max eigenvalue"

/-- The key of the degree. -/
def degreeKey : String := "chebyshev: degree"

/-- The key of the smallest diagonal entry. -/
def minDiagonalKey : String := "chebyshev: min diagonal value"

/-- The key of the zero start. -/
def zeroStartKey : String := "chebyshev: zero starting solution"

/-- The key of the estimation. -/
def estimationKey : String := "chebyshev: eigenvalue estimation"

/-- The key of the number of iterations. -/
def iterationsKey : String := "chebyshev: estimation iterations"

/-- All keys of the smoother. -/
def keys : List String :=
  [ratioKey, lambdaMinKey, lambdaMaxKey, degreeKey, minDiagonalKey, zeroStartKey, estimationKey,
    iterationsKey]

variable {R : Type} [Scalar R]

/-- The settings that hold unless others are given. -/
def default : ChebyshevParams R where
  ratio := Scalar.ofNat 30
  lambdaMin := 0
  lambdaMax := Scalar.ofNat 100
  degree := 1
  minDiagonal := 0
  zeroStart := true
  estimation := .given
  iterations := 10

/-- The estimation that a list asks for. -/
def readEstimation (list : ParameterList R) (present : Estimation) :
    Except ParameterError Estimation :=
  match list.read ParameterValue.asText estimationKey present.name with
  | .error error => .error error
  | .ok name =>
    match Estimation.ofName name with
    | .ok estimation => .ok estimation
    | .error reason => .error (.invalidValue estimationKey name reason)

/-- Replace the settings that a list has. -/
def update (list : ParameterList R) : Attempt (ChebyshevParams R) ParameterError Unit := do
  Attempt.revise fun p => (list.read ParameterValue.asDouble ratioKey p.ratio).map
    fun value => { p with ratio := value }
  Attempt.revise fun p => (list.read ParameterValue.asDouble lambdaMinKey p.lambdaMin).map
    fun value => { p with lambdaMin := value }
  Attempt.revise fun p => (list.read ParameterValue.asDouble lambdaMaxKey p.lambdaMax).map
    fun value => { p with lambdaMax := value }
  Attempt.revise fun p => (list.read ParameterValue.asCount degreeKey p.degree).map
    fun value => { p with degree := value }
  Attempt.revise fun p => (list.read ParameterValue.asDouble minDiagonalKey p.minDiagonal).map
    fun value => { p with minDiagonal := value }
  Attempt.revise fun p => (list.read ParameterValue.asBool zeroStartKey p.zeroStart).map
    fun value => { p with zeroStart := value }
  Attempt.revise fun p => (list.read ParameterValue.asCount iterationsKey p.iterations).map
    fun value => { p with iterations := value }
  Attempt.revise fun p => (readEstimation list p.estimation).map
    fun value => { p with estimation := value }

/-- The warnings that a list which was read gives rise to. -/
def warnings (list : ParameterList R) : Journal := list.unrecognizedWarnings space keys

end ChebyshevParams

end HexSlab

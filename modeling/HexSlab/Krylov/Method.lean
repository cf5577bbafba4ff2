import HexSlab.Parameter.List
import HexSlab.Smoother.Error
import HexSlab.Text.Case

/-!
# Choosing a Krylov method

A solver is a method with its limits. It can be read from a parameter list, in
which all keys of the solver are read whether the method needs them or not.
-/

namespace HexSlab

/-- A Krylov method. -/
inductive KrylovMethod where
  /-- Conjugate gradients. -/
  | cg
  /-- Generalized minimal residuals, restarted after a number of steps. -/
  | gmres (restart : Nat)
  /-- Stabilized biconjugate gradients. -/
  | bicgstab
  deriving DecidableEq

namespace KrylovMethod

/-- The name of a method. -/
def name : KrylovMethod → String
  | .cg => "CG"
  | .gmres _ => "GMRES"
  | .bicgstab => "BiCGStab"

/-- The number of steps before a restart, for the method that has one. -/
def restart? : KrylovMethod → Option Nat
  | .gmres restart => some restart
  | _ => none

end KrylovMethod

/-- Why an iteration cannot go on. -/
inductive Breakdown where
  /-- A direction with no positive energy. -/
  | notPositiveDefinite
  /-- A column of the projected operator vanished. -/
  | hessenbergSingular
  /-- The residual has no part along the shadow residual. -/
  | residualOrthogonal
  /-- The image of the direction has no part along the shadow residual. -/
  | directionOrthogonal
  /-- The stabilizing step has length zero. -/
  | stabilizationVanished
  deriving DecidableEq

/-- The words for a breakdown. -/
def Breakdown.reason : Breakdown → String
  | .notPositiveDefinite => "operator is not positive definite"
  | .hessenbergSingular => "Hessenberg matrix is singular"
  | .residualOrthogonal => "residual is orthogonal to the shadow residual"
  | .directionOrthogonal => "search direction is orthogonal to the shadow residual"
  | .stabilizationVanished => "stabilization coefficient vanished"

/-- Why a system cannot be solved. Running out of iterations is no error. -/
inductive SolverError (R : Type) where
  /-- The iteration cannot go on. -/
  | breakdown (method : KrylovMethod) (iteration : Nat) (cause : Breakdown)
  /-- A parameter cannot be read. -/
  | parameter (error : ParameterError)
  /-- The preconditioner failed. -/
  | preconditioner (error : PreconditionerError R)
  /-- The operator failed. -/
  | operator (error : OperatorError)

/-- The text of a solver error. -/
def SolverError.message : SolverError Float → String
  | .breakdown method iteration cause =>
    method.name ++ " broke down at iteration " ++ toString iteration ++ ": " ++ cause.reason
  | .parameter error => error.message
  | .preconditioner error => error.message
  | .operator error => error.message

/-- A method with its limits. -/
structure KrylovSolver (R : Type) where
  /-- The method. -/
  method : KrylovMethod
  /-- The most iterations it may take. -/
  maxIterations : Nat
  /-- The residual that is accepted, relative to the right-hand side. -/
  tolerance : R

namespace KrylovSolver

/-- What the keys of the solver begin with. -/
def space : String := "solver: "

/-- The key of the method. -/
def methodKey : String := "solver: type"

/-- The key of the number of iterations. -/
def iterationsKey : String := "solver: max iterations"

/-- The key of the tolerance. -/
def toleranceKey : String := "solver: tolerance"

/-- The key of the number of steps before a restart. -/
def restartKey : String := "solver: gmres restart"

/-- All keys of the solver. -/
def keys : List String := [methodKey, iterationsKey, toleranceKey, restartKey]

/-- The number of steps before a restart unless another is given. -/
def defaultRestart : Nat := 30

variable {R : Type} [Scalar R]

/-- A solver with the usual limits. -/
def ofMethod (method : KrylovMethod) : KrylovSolver R where
  method := method
  maxIterations := 500
  tolerance := 1 / Scalar.ofNat 100000000

/-- The method with a given name, in any case. -/
def methodOfName (name : String) (restart : Nat) : Except ParameterError KrylovMethod :=
  let word := Text.lower name
  if word = "cg" then .ok .cg
  else if word = "gmres" then
    if restart = 0 then
      .error (.invalidValue restartKey "0" "GMRES needs at least one basis vector")
    else .ok (.gmres restart)
  else if word = "bicgstab" then .ok .bicgstab
  else .error (.invalidValue methodKey name "expected 'cg', 'gmres' or 'bicgstab'")

/-- The solver that a list asks for. -/
def ofParameters (list : ParameterList R) : Except ParameterError (KrylovSolver R) := do
  let name ← list.read ParameterValue.asText methodKey "cg"
  let restart ← list.read ParameterValue.asCount restartKey defaultRestart
  let method ← methodOfName name restart
  let usual : KrylovSolver R := ofMethod method
  let maxIterations ← list.read ParameterValue.asCount iterationsKey usual.maxIterations
  let tolerance ← list.read ParameterValue.asDouble toleranceKey usual.tolerance
  return ⟨method, maxIterations, tolerance⟩

/-- The warnings that a list which was read gives rise to. -/
def warnings (list : ParameterList R) : Journal := list.unrecognizedWarnings space keys

end KrylovSolver

end HexSlab

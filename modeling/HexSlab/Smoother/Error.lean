import HexSlab.Numeral.Layout
import HexSlab.Operator
import HexSlab.Parameter.Value

/-!
# What can go wrong with a preconditioner

The causes of failure in setting up and applying a preconditioner. Numbers that
were found wanting are kept with the cause.
-/

namespace HexSlab

/-- Why a preconditioner cannot be set up or applied. -/
inductive PreconditionerError (R : Type) where
  /-- It was applied before it was computed. -/
  | notComputed
  /-- A polynomial of degree zero. -/
  | noDegree
  /-- No sweeps at all. -/
  | noSweeps
  /-- The ratio of eigenvalues is not positive. -/
  | ratioNotPositive (ratio : R)
  /-- The largest eigenvalue is not positive and finite. -/
  | eigenvalueUnusable (value : R)
  /-- The interval to damp is empty. -/
  | intervalEmpty (low high ratio : R)
  /-- The start vector of an estimate is zero. -/
  | startVanished
  /-- An iterate of the power method is zero. -/
  | iterateVanished
  /-- Conjugate gradients stopped before the first step. -/
  | noProgress
  /-- Vectors or rows that do not belong together. -/
  | shapesDiffer
  /-- A parameter cannot be read. -/
  | parameter (error : ParameterError)
  /-- The operator failed. -/
  | operator (error : OperatorError)

namespace PreconditionerError

open Numeral

/-- The text of a preconditioner error. -/
def message : PreconditionerError Float → String
  | .notComputed => "Preconditioner has not been computed"
  | .noDegree => "Invalid configuration: polynomial degree must be at least 1"
  | .noSweeps => "Invalid configuration: number of sweeps must be at least 1"
  | .ratioNotPositive ratio =>
    "Invalid configuration: eigenvalue ratio must be positive, got " ++ plain ratio
  | .eigenvalueUnusable value =>
    "Invalid configuration: largest eigenvalue must be positive and finite, got " ++
      exponential value
  | .intervalEmpty low high ratio =>
    "Invalid configuration: damped interval [" ++ exponential low ++ ", " ++ exponential high ++
      "] is empty, eigenvalue ratio " ++ plain ratio ++ " is too small"
  | .startVanished => "Eigenvalue estimation failed: start vector has zero norm"
  | .iterateVanished => "Eigenvalue estimation failed: power method iterate vanished"
  | .noProgress => "Eigenvalue estimation failed: CG made no progress"
  | .shapesDiffer => "vectors or rows of different shapes were combined"
  | .parameter error => error.message
  | .operator error => error.message

end PreconditionerError

end HexSlab

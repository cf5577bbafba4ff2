import HexSlab.Krylov.Method

/-!
# The system that a method works on

What all methods share: the operator, a preconditioner, the right-hand side,
the limits, and how a residual is measured. A solve that stops with an error
keeps the solution vector as it was at that point. A method never divides on
its own: it is given a division, which is told what it divides by. That of a
usual run gives the quotients and does nothing else.
-/

namespace HexSlab

/-- An approximate inverse of an operator, in a run with states `σ`. It is given
a right-hand side and a start, and may answer differently from call to call. -/
structure Preconditioner (σ R : Type) (n : Nat) where
  /-- An approximate solution for a right-hand side, from a start. -/
  applyInverse : Vector R n → Vector R n → Attempt σ (PreconditionerError R) (Vector R n)

/-- How far a solve has come. -/
structure SolveStatus (R : Type) where
  /-- Iterations taken. -/
  iterations : Nat
  /-- Norm of the residual relative to that of the right-hand side. -/
  relativeResidual : R
  /-- The tolerance was reached. -/
  converged : Bool
  deriving DecidableEq

/-- The result of a solve. -/
structure Solution (R : Type) (n : Nat) where
  /-- The solution vector. -/
  x : Vector R n
  /-- How far the solve has come. -/
  status : SolveStatus R

/-- A solve that was stopped by an error. -/
structure Halt (R : Type) (n : Nat) where
  /-- What stopped it. -/
  error : SolverError R
  /-- The solution vector as it was left. -/
  x : Vector R n

/-- A solve in a run with states `σ`. -/
abbrev Solving (σ R : Type) (n : Nat) (α : Type) := Attempt σ (Halt R n) α

/-- What a solve divides by. -/
inductive Divisor where
  /-- The norm of the right-hand side. -/
  | rightHandSide
  /-- The energy of a direction. -/
  | energy
  /-- The inner product of a residual and its preconditioned residual. -/
  | preconditioned
  /-- The inner product of the shadow residual and the residual, an iteration ago. -/
  | shadow
  /-- The length of the last stabilizing step. -/
  | stabilization
  /-- The inner product of the shadow residual and the image of a direction. -/
  | along
  /-- The square of the image that a stabilizing step goes along. -/
  | image
  /-- The norm of the residual that a cycle starts from. -/
  | residual
  /-- The length of the end of a column, which a rotation turns. -/
  | rotation
  /-- The norm of what the basis leaves of an image. -/
  | remainder
  /-- An entry of the diagonal of a triangular matrix. -/
  | pivot
  deriving DecidableEq

/-- How a solve divides. -/
structure Division (σ R : Type) (n : Nat) where
  /-- What takes a number to its quotient, for a divisor in its place. -/
  quotients : Divisor → R → Solving σ R n (R → R)

namespace Division

variable {σ R : Type} {n : Nat}

/-- Division that does nothing else. -/
def plain [Scalar R] : Division σ R n where
  quotients := fun _ divisor => pure (· / divisor)

/-- A quotient of two numbers. -/
@[specialize] def divide (division : Division σ R n) (place : Divisor) (dividend divisor : R) :
    Solving σ R n R := do
  let quotient ← division.quotients place divisor
  pure (quotient dividend)

/-- The entries of a vector divided by one number. -/
@[specialize] def divideAll (division : Division σ R n) (place : Divisor) (v : Vector R n)
    (divisor : R) : Solving σ R n (Vector R n) := do
  let quotient ← division.quotients place divisor
  pure (v.map quotient)

end Division

/-- A linear system with the limits for its solution. -/
structure LinearSystem (σ R : Type) (n : Nat) where
  /-- The operator. -/
  op : Operator σ R n
  /-- The preconditioner, if there is one. -/
  preconditioner : Option (Preconditioner σ R n)
  /-- The right-hand side. -/
  b : Vector R n
  /-- The norm of the right-hand side. -/
  bNorm : R
  /-- The most iterations that may be taken. -/
  maxIterations : Nat
  /-- The relative residual that is accepted. -/
  tolerance : R

namespace LinearSystem

variable {σ R : Type} [Scalar R] {n : Nat}

/-- Inner product over all processes. -/
@[specialize] def dot (system : LinearSystem σ R n) (x y : Vector R n) : R :=
  system.op.comm.dot x y

/-- The norm of a residual relative to that of the right-hand side. -/
@[specialize] def relativeNormBy (division : Division σ R n) (system : LinearSystem σ R n)
    (r : Vector R n) : Solving σ R n R :=
  division.divide .rightHandSide (system.op.comm.norm r) system.bNorm

/-- The status after a number of iterations at a residual. -/
def status (system : LinearSystem σ R n) (iterations : Nat) (residual : R) : SolveStatus R :=
  ⟨iterations, residual, decide (residual ≤ system.tolerance)⟩

/-- Stop with a breakdown. -/
def breakdown {α : Type} (x : Vector R n) (method : KrylovMethod) (iteration : Nat)
    (cause : Breakdown) : Solving σ R n α :=
  Attempt.fail ⟨.breakdown method iteration cause, x⟩

/-- Apply the operator while the solution vector is `x`. -/
@[specialize] def apply (system : LinearSystem σ R n) (x v : Vector R n) :
    Solving σ R n (Vector R n) :=
  (system.op.apply v).mapError fun error => ⟨.operator error, x⟩

/-- Apply the preconditioner, from a zero start, while the solution vector is
`x`. Without a preconditioner the vector is its own answer. -/
@[specialize] def precondition (system : LinearSystem σ R n) (x r : Vector R n) :
    Solving σ R n (Vector R n) :=
  match system.preconditioner with
  | none => pure r
  | some preconditioner =>
    (preconditioner.applyInverse r (Vec.fill 0)).mapError fun error =>
      ⟨.preconditioner error, x⟩

/-- The residual of the solution vector. -/
@[specialize] def residual (system : LinearSystem σ R n) (x : Vector R n) :
    Solving σ R n (Vector R n) := do
  let image ← system.apply x x
  pure (Vec.axpy 1 system.b (-1) image)

end LinearSystem

end HexSlab

import HexSlab.Krylov.BiconjugateGradients
import HexSlab.Krylov.ConjugateGradients
import HexSlab.Krylov.MinimalResiduals

/-!
# Solving a linear system

A right-hand side of zero has the solution zero. Any other is handed to the
method of the solver, with the given vector as the start. Vectors of the wrong
length are refused before anything is computed. A usual solve divides and does
nothing else.
-/

namespace HexSlab

namespace KrylovSolver

variable {σ R : Type} [Scalar R] {n : Nat}

/-- The system that a solver works on. -/
def systemOf (solver : KrylovSolver R) (op : Operator σ R n)
    (preconditioner : Option (Preconditioner σ R n)) (b : Vector R n) (bNorm : R) :
    LinearSystem σ R n :=
  ⟨op, preconditioner, b, bNorm, solver.maxIterations, solver.tolerance⟩

/-- Run a method on a system from a start. -/
def runMethodBy (division : Division σ R n) (method : KrylovMethod) (system : LinearSystem σ R n)
    (x : Vector R n) : Solving σ R n (Solution R n) :=
  match method with
  | .cg => ConjugateGradients.solveBy division system x
  | .gmres restart => MinimalResiduals.solveBy division system restart x
  | .bicgstab => BiconjugateGradients.solveBy division system x

/-- Solve a system whose vectors fit the operator. -/
def solveBy (division : Division σ R n) (solver : KrylovSolver R) (op : Operator σ R n)
    (preconditioner : Option (Preconditioner σ R n)) (b x : Vector R n) :
    Solving σ R n (Solution R n) :=
  let bNorm := op.comm.norm b
  if bNorm == 0 then pure ⟨Vec.fill 0, ⟨0, 0, true⟩⟩
  else runMethodBy division solver.method (solver.systemOf op preconditioner b bNorm) x

/-- Solve a system with vectors of any length, by a division; the right-hand side is
checked first. The start is left alone if a length is wrong. -/
def solveCheckedBy (division : Division σ R n) (solver : KrylovSolver R) (op : Operator σ R n)
    (preconditioner : Option (Preconditioner σ R n)) (b x : Array R) :
    Attempt σ (SolverError R × Array R) (Array R × SolveStatus R) :=
  match checkPair n b x with
  | .error error => Attempt.fail (.operator error, x)
  | .ok (b, x) => do
    let solution ← (solver.solveBy division op preconditioner b x).mapError fun halt =>
      (halt.error, halt.x.toArray)
    pure (solution.x.toArray, solution.status)

/-- Solve a system with vectors of any length. -/
def solveChecked (solver : KrylovSolver R) (op : Operator σ R n)
    (preconditioner : Option (Preconditioner σ R n)) (b x : Array R) :
    Attempt σ (SolverError R × Array R) (Array R × SolveStatus R) :=
  solver.solveCheckedBy .plain op preconditioner b x

/-- The warning that a solve gives if it did not converge. -/
def journal (solver : KrylovSolver Float) (status : SolveStatus Float) : Journal :=
  if status.converged then []
  else Journal.warning (solver.method.name ++ " did not converge in " ++
    toString status.iterations ++ " iterations, relative residual " ++
    Numeral.exponential status.relativeResidual)

end KrylovSolver

end HexSlab

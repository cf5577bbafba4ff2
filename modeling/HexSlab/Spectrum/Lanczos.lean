import HexSlab.Smoother.Error
import HexSlab.Spectrum.Tridiagonal

/-!
# Eigenvalues from conjugate gradients

The step lengths and the direction coefficients of conjugate gradients with a
diagonal preconditioner define a symmetric tridiagonal matrix whose extreme
eigenvalues approximate those of the scaled operator. The run ends early when a
quantity that has to be positive is not, or when the residual has all but
vanished.
-/

namespace HexSlab

/-- The coefficients of a run of conjugate gradients. -/
structure LanczosRun (R : Type) where
  /-- Step lengths. -/
  steps : List R
  /-- Coefficients of the old directions in the new ones; the last step may
  have none. -/
  turns : List R

variable {σ R : Type} [Scalar R] {n : Nat}

namespace LanczosRun

/-- The run without a step. -/
def none : LanczosRun R := ⟨[], []⟩

/-- A run of one step. -/
def last (step : R) : LanczosRun R := ⟨[step], []⟩

/-- A step in front of a run. -/
def cons (step turn : R) (rest : LanczosRun R) : LanczosRun R :=
  ⟨step :: rest.steps, turn :: rest.turns⟩

/-- The tridiagonal matrix of a run. Its diagonal has the reciprocal step
lengths, each but the first with the quotient of the turn and the step before;
beside it are the square roots of the turns by the steps. -/
def tridiagonal (run : LanczosRun R) : Tridiagonal R where
  diagonal :=
    match run.steps with
    | [] => []
    | first :: rest =>
      1 / first ::
        rest.zipWith (fun step carried => 1 / step + carried)
          (run.turns.zipWith (fun turn step => turn / step) run.steps)
  offDiagonal :=
    ((run.turns.zipWith (fun turn step => Scalar.sqrt turn / step) run.steps).take
      (run.steps.length - 1))

end LanczosRun

/-- The part of the first residual at which a run has converged. -/
def lanczosTolerance : R := 1 / Scalar.ofNat 10000000000

/-- At most a number of steps of conjugate gradients from a residual, a
direction and their inner product, until the residual falls to a bound. -/
@[specialize] def lanczosSteps (op : Operator σ R n) (inverse : Vector R n) (bound : R) :
    Nat → Vector R n → Vector R n → R → Attempt σ (PreconditionerError R) (LanczosRun R)
  | 0, _, _, _ => pure .none
  | count + 1, r, p, rz =>
    if 0 < rz then do
      let q ← (op.apply p).mapError .operator
      let pq := op.comm.dot p q
      if 0 < pq then
        let step := rz / pq
        let r := Vec.axpy (-step) q 1 r
        let z := Vec.hadamard inverse r
        let rzNew := op.comm.dot r z
        let turn := rzNew / rz
        if Scalar.sqrt (Scalar.abs rzNew) ≤ bound then pure (.last step)
        else if 0 < turn then do
          let rest ← lanczosSteps op inverse bound count r (Vec.axpy 1 z turn p) rzNew
          pure (.cons step turn rest)
        else pure (.last step)
      else pure .none
    else pure .none

/-- The run of conjugate gradients from a start vector as the first residual. -/
def lanczosRun (op : Operator σ R n) (inverse start : Vector R n) (iterations : Nat) :
    Attempt σ (PreconditionerError R) (LanczosRun R) :=
  let z := Vec.hadamard inverse start
  let rz := op.comm.dot start z
  let bound := lanczosTolerance * Scalar.sqrt (Scalar.abs rz)
  lanczosSteps op inverse bound iterations start z rz

/-- Estimates of the smallest and the largest eigenvalue of the operator scaled
by an inverse diagonal, given a way to find those of a tridiagonal matrix. -/
def cgEstimate (extremes : Tridiagonal R → R × R) (op : Operator σ R n)
    (inverse start : Vector R n) (iterations : Nat) :
    Attempt σ (PreconditionerError R) (R × R) := do
  let run ← lanczosRun op inverse start iterations
  if run.steps.isEmpty then Attempt.fail .noProgress
  else pure (extremes run.tridiagonal)

/-- The estimate with an inverse diagonal of any length. One of the wrong length
is noticed before the first step. -/
def cgEstimateChecked (extremes : Tridiagonal R → R × R) (op : Operator σ R n)
    (inverse : Array R) (start : Vector R n) (iterations : Nat) :
    Attempt σ (PreconditionerError R) (R × R) :=
  if h : inverse.size = n then cgEstimate extremes op ⟨inverse, h⟩ start iterations
  else Attempt.fail .shapesDiffer

end HexSlab

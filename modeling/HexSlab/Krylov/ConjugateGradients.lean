import HexSlab.Krylov.System

/-!
# Conjugate gradients

Each iteration moves the solution along a direction as far as lowers its energy
most. The residual is updated beside the solution, and a new direction is made
of the preconditioned residual and the old direction.
-/

namespace HexSlab.ConjugateGradients

variable {σ R : Type} [Scalar R] {n : Nat}

/-- The data that an iteration starts from. -/
structure State (R : Type) (n : Nat) where
  /-- The solution so far. -/
  x : Vector R n
  /-- Its residual. -/
  r : Vector R n
  /-- The direction to go. -/
  p : Vector R n
  /-- Inner product of the residual and the preconditioned residual. -/
  rz : R
  /-- The relative norm of the residual. -/
  residual : R

/-- The solution and the residual after a step along the direction. -/
@[specialize] def State.step (state : State R n) (alpha : R) (image : Vector R n) : State R n :=
  { state with
    x := Vec.axpy alpha state.p 1 state.x
    r := Vec.axpy (-alpha) image 1 state.r }

/-- At most a number of iterations, the first of them numbered `iteration`. -/
@[specialize] def iterateBy (division : Division σ R n) (system : LinearSystem σ R n) :
    Nat → Nat → State R n → Solving σ R n (Solution R n)
  | 0, _, state => pure ⟨state.x, system.status system.maxIterations state.residual⟩
  | remaining + 1, iteration, state => do
    let image ← system.apply state.x state.p
    let energy := system.dot state.p image
    if 0 < energy then
      let alpha ← division.divide .energy state.rz energy
      let moved := state.step alpha image
      let residual ← system.relativeNormBy division moved.r
      if residual ≤ system.tolerance then
        pure ⟨moved.x, system.status iteration residual⟩
      else
        let z ← system.precondition moved.x moved.r
        let rz := system.dot moved.r z
        let beta ← division.divide .preconditioned rz state.rz
        let p := Vec.axpy 1 z beta moved.p
        iterateBy division system remaining (iteration + 1) ⟨moved.x, moved.r, p, rz, residual⟩
    else LinearSystem.breakdown state.x .cg iteration .notPositiveDefinite

/-- Solve a system from a start. -/
@[specialize] def solveBy (division : Division σ R n) (system : LinearSystem σ R n)
    (x : Vector R n) : Solving σ R n (Solution R n) := do
  let r ← system.residual x
  let residual ← system.relativeNormBy division r
  if residual ≤ system.tolerance then pure ⟨x, system.status 0 residual⟩
  else
    let z ← system.precondition x r
    iterateBy division system system.maxIterations 1 ⟨x, r, z, system.dot r z, residual⟩

end HexSlab.ConjugateGradients

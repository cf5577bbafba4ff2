import HexSlab.Krylov.System

/-!
# Stabilized biconjugate gradients

Each iteration takes a step that makes the residual orthogonal to a shadow
residual, and a second step that makes it as small as it can along its own
image. Either step may be the last. The preconditioner acts from the right, so
the residual that is watched is the true one.
-/

namespace HexSlab.BiconjugateGradients

variable {σ R : Type} [Scalar R] {n : Nat}

/-- The data that an iteration starts from. -/
structure State (R : Type) (n : Nat) where
  /-- The solution so far. -/
  x : Vector R n
  /-- Its residual. -/
  r : Vector R n
  /-- The last direction. -/
  p : Vector R n
  /-- The image of the last preconditioned direction. -/
  v : Vector R n
  /-- Inner product of the shadow residual and the residual, an iteration ago. -/
  rho : R
  /-- Length of the last first step. -/
  alpha : R
  /-- Length of the last second step. -/
  omega : R
  /-- The relative norm of the residual. -/
  residual : R

/-- The data before the first iteration. -/
def State.first (x r : Vector R n) (residual : R) : State R n :=
  ⟨x, r, Vec.fill 0, Vec.fill 0, 1, 1, 1, residual⟩

/-- The direction of an iteration: the residual in the first one, and a
combination of the residual, the last direction and its image later. -/
@[specialize] def State.directionBy (division : Division σ R n) (state : State R n)
    (iteration : Nat) (rho : R) : Solving σ R n (Vector R n) :=
  if iteration = 1 then pure state.r
  else do
    let growth ← division.divide .shadow rho state.rho
    let steps ← division.divide .stabilization state.alpha state.omega
    pure (Vec.axpy 1 state.r (growth * steps) (Vec.axpy (-state.omega) state.v 1 state.p))

/-- The length of the step that makes a residual as small as it can along an image. -/
@[specialize] def stabilizationBy (division : Division σ R n) (system : LinearSystem σ R n)
    (t s : Vector R n) : Solving σ R n R :=
  let tt := system.dot t t
  if 0 < tt then division.divide .image (system.dot t s) tt else pure 0

/-- At most a number of iterations, the first of them numbered `iteration`. -/
@[specialize] def iterateBy (division : Division σ R n) (system : LinearSystem σ R n)
    (shadow : Vector R n) : Nat → Nat → State R n → Solving σ R n (Solution R n)
  | 0, _, state => pure ⟨state.x, system.status system.maxIterations state.residual⟩
  | remaining + 1, iteration, state =>
    let rho := system.dot shadow state.r
    if rho == 0 then LinearSystem.breakdown state.x .bicgstab iteration .residualOrthogonal
    else do
      let p ← state.directionBy division iteration rho
      let pHat ← system.precondition state.x p
      let v ← system.apply state.x pHat
      let along := system.dot shadow v
      if along == 0 then
        LinearSystem.breakdown state.x .bicgstab iteration .directionOrthogonal
      else
        let alpha ← division.divide .along rho along
        let s := Vec.axpy (-alpha) v 1 state.r
        let halfway ← system.relativeNormBy division s
        if halfway ≤ system.tolerance then
          pure ⟨Vec.axpy alpha pHat 1 state.x, system.status iteration halfway⟩
        else
          let sHat ← system.precondition state.x s
          let t ← system.apply state.x sHat
          let omega ← stabilizationBy division system t s
          let x := Vec.axpy omega sHat 1 (Vec.axpy alpha pHat 1 state.x)
          let r := Vec.axpy (-omega) t 1 s
          let residual ← system.relativeNormBy division r
          if residual ≤ system.tolerance then pure ⟨x, system.status iteration residual⟩
          else if omega == 0 then
            LinearSystem.breakdown x .bicgstab iteration .stabilizationVanished
          else
            iterateBy division system shadow remaining (iteration + 1)
              ⟨x, r, p, v, rho, alpha, omega, residual⟩

/-- Solve a system from a start. The first residual is the shadow residual. -/
@[specialize] def solveBy (division : Division σ R n) (system : LinearSystem σ R n)
    (x : Vector R n) : Solving σ R n (Solution R n) := do
  let r ← system.residual x
  let residual ← system.relativeNormBy division r
  if residual ≤ system.tolerance then pure ⟨x, system.status 0 residual⟩
  else iterateBy division system r system.maxIterations 1 (.first x r residual)

end HexSlab.BiconjugateGradients

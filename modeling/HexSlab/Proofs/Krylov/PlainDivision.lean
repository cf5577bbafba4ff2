import HexSlab.Krylov.Solve

/-!
# Solves with plain division

With plain division a solve knows its quotients where it makes them. What its steps make
with a division of their own is said here by the numbers and vectors that plain division
makes, and each loop by one equation for its next step, with the quotients written out.
-/

namespace HexSlab

variable {σ R : Type} [Scalar R] {n : Nat}

namespace Division

/-- Plain division gives the quotient. -/
theorem divide_plain (place : Divisor) (dividend divisor : R) :
    (plain : Division σ R n).divide place dividend divisor = pure (dividend / divisor) := rfl

/-- So it does for all entries of a vector. -/
theorem divideAll_plain (place : Divisor) (v : Vector R n) (divisor : R) :
    (plain : Division σ R n).divideAll place v divisor = pure (Vec.divBy v divisor) := rfl

end Division

namespace LinearSystem

/-- The norm of a residual relative to that of the right-hand side. -/
def relativeNorm (system : LinearSystem σ R n) (r : Vector R n) : R :=
  system.op.comm.norm r / system.bNorm

/-- Plain division measures this norm. -/
theorem relativeNormBy_plain (system : LinearSystem σ R n) (r : Vector R n) :
    system.relativeNormBy .plain r = pure (system.relativeNorm r) := rfl

end LinearSystem

namespace ConjugateGradients

variable (system : LinearSystem σ R n)

/-- Iterations with plain division. -/
def iterate (remaining iteration : Nat) (state : State R n) : Solving σ R n (Solution R n) :=
  iterateBy .plain system remaining iteration state

/-- A solve with plain division. -/
def solve (x : Vector R n) : Solving σ R n (Solution R n) := solveBy .plain system x

/-- No iteration is left. -/
theorem iterate_zero (iteration : Nat) (state : State R n) :
    iterate system 0 iteration state =
      pure ⟨state.x, system.status system.maxIterations state.residual⟩ := rfl

/-- The next iteration. -/
theorem iterate_succ (remaining iteration : Nat) (state : State R n) :
    iterate system (remaining + 1) iteration state = (do
      let image ← system.apply state.x state.p
      let energy := system.dot state.p image
      if 0 < energy then
        let moved := state.step (state.rz / energy) image
        let residual := system.relativeNorm moved.r
        if residual ≤ system.tolerance then
          pure ⟨moved.x, system.status iteration residual⟩
        else
          let z ← system.precondition moved.x moved.r
          let rz := system.dot moved.r z
          let p := Vec.axpy 1 z (rz / state.rz) moved.p
          iterate system remaining (iteration + 1) ⟨moved.x, moved.r, p, rz, residual⟩
      else LinearSystem.breakdown state.x .cg iteration .notPositiveDefinite) := rfl

/-- What comes before the first iteration. -/
theorem solve_eq (x : Vector R n) :
    solve system x = (do
      let r ← system.residual x
      let residual := system.relativeNorm r
      if residual ≤ system.tolerance then pure ⟨x, system.status 0 residual⟩
      else
        let z ← system.precondition x r
        iterate system system.maxIterations 1 ⟨x, r, z, system.dot r z, residual⟩) := rfl

end ConjugateGradients

namespace BiconjugateGradients

/-- The direction of an iteration. -/
def State.direction (state : State R n) (iteration : Nat) (rho : R) : Vector R n :=
  if iteration = 1 then state.r
  else
    let beta := (rho / state.rho) * (state.alpha / state.omega)
    Vec.axpy 1 state.r beta (Vec.axpy (-state.omega) state.v 1 state.p)

/-- Plain division makes this direction. -/
theorem State.directionBy_plain (state : State R n) (iteration : Nat) (rho : R) :
    (state.directionBy .plain iteration rho : Solving σ R n (Vector R n)) =
      pure (state.direction iteration rho) := by
  unfold directionBy direction
  split <;> rfl

variable (system : LinearSystem σ R n)

/-- The length of a stabilizing step. -/
def stabilization (t s : Vector R n) : R :=
  if 0 < system.dot t t then system.dot t s / system.dot t t else 0

/-- Plain division makes a step of this length. -/
theorem stabilizationBy_plain (t s : Vector R n) :
    stabilizationBy .plain system t s = pure (stabilization system t s) := by
  unfold stabilizationBy stabilization
  dsimp only
  split <;> rfl

/-- Iterations with plain division. -/
def iterate (shadow : Vector R n) (remaining iteration : Nat) (state : State R n) :
    Solving σ R n (Solution R n) :=
  iterateBy .plain system shadow remaining iteration state

/-- A solve with plain division. -/
def solve (x : Vector R n) : Solving σ R n (Solution R n) := solveBy .plain system x

/-- No iteration is left. -/
theorem iterate_zero (shadow : Vector R n) (iteration : Nat) (state : State R n) :
    iterate system shadow 0 iteration state =
      pure ⟨state.x, system.status system.maxIterations state.residual⟩ := rfl

/-- The next iteration. -/
theorem iterate_succ (shadow : Vector R n) (remaining iteration : Nat) (state : State R n) :
    iterate system shadow (remaining + 1) iteration state =
      let rho := system.dot shadow state.r
      if rho == 0 then LinearSystem.breakdown state.x .bicgstab iteration .residualOrthogonal
      else (do
        let p := state.direction iteration rho
        let pHat ← system.precondition state.x p
        let v ← system.apply state.x pHat
        let along := system.dot shadow v
        if along == 0 then
          LinearSystem.breakdown state.x .bicgstab iteration .directionOrthogonal
        else
          let alpha := rho / along
          let s := Vec.axpy (-alpha) v 1 state.r
          let halfway := system.relativeNorm s
          if halfway ≤ system.tolerance then
            pure ⟨Vec.axpy alpha pHat 1 state.x, system.status iteration halfway⟩
          else
            let sHat ← system.precondition state.x s
            let t ← system.apply state.x sHat
            let omega := stabilization system t s
            let x := Vec.axpy omega sHat 1 (Vec.axpy alpha pHat 1 state.x)
            let r := Vec.axpy (-omega) t 1 s
            let residual := system.relativeNorm r
            if residual ≤ system.tolerance then pure ⟨x, system.status iteration residual⟩
            else if omega == 0 then
              LinearSystem.breakdown x .bicgstab iteration .stabilizationVanished
            else
              iterate system shadow remaining (iteration + 1)
                ⟨x, r, p, v, rho, alpha, omega, residual⟩) := by
  rw [iterate, iterateBy]
  simp only [State.directionBy_plain, stabilizationBy_plain, Division.divide_plain,
    LinearSystem.relativeNormBy_plain, pure_bind]
  rfl

/-- What comes before the first iteration. -/
theorem solve_eq (x : Vector R n) :
    solve system x = (do
      let r ← system.residual x
      let residual := system.relativeNorm r
      if residual ≤ system.tolerance then pure ⟨x, system.status 0 residual⟩
      else iterate system r system.maxIterations 1 (.first x r residual)) := rfl

end BiconjugateGradients

namespace MinimalResiduals

/-- The start of a cycle from a solution with a residual of some norm. -/
def Cycle.start (x r : Vector R n) (norm : R) : Cycle R n := .first x (Vec.divBy r norm) norm

/-- The first unknowns of a triangular system, with the later ones. -/
def backSubstitute (columns : List (List R)) (rhs : List R) : Nat → List R → List R
  | 0, solved => solved
  | row + 1, solved =>
    let known := (solved.zipIdx (row + 1)).foldl
      (fun sum later => sum + entryAt columns row later.2 * later.1) 0
    let value := (rhs.getD row 0 - known) / entryAt columns row row
    backSubstitute columns rhs row (value :: solved)

/-- Plain division solves for these unknowns. -/
theorem backSubstituteBy_plain (columns : List (List R)) (rhs : List R) (row : Nat)
    (solved : List R) :
    (backSubstituteBy .plain columns rhs row solved : Solving σ R n (List R)) =
      pure (backSubstitute columns rhs row solved) := by
  induction row generalizing solved with
  | zero => rfl
  | succ row ih =>
    rw [backSubstituteBy, backSubstitute, Division.divide_plain, pure_bind, ih]

/-- The coefficients of the smallest residual that a cycle can reach. -/
def Cycle.coefficients (cycle : Cycle R n) : List R :=
  backSubstitute cycle.columns cycle.settled cycle.columns.length []

/-- The solution at the end of a cycle. -/
def Cycle.finish (cycle : Cycle R n) : Vector R n :=
  correct cycle.x cycle.coefficients cycle.directions

/-- Plain division makes this solution. -/
theorem Cycle.finishBy_plain (cycle : Cycle R n) :
    (cycle.finishBy .plain : Solving σ R n (Vector R n)) = pure cycle.finish := by
  rw [finishBy, backSubstituteBy_plain, pure_bind]
  rfl

/-- The cycle with the remainder, brought to unit length, in its basis. -/
def Step.extend (taken : Step R n) : Cycle R n :=
  taken.cycle.continueWith (Vec.divBy taken.remainder taken.next)

variable (system : LinearSystem σ R n)

/-- A step of a cycle with plain division. -/
def step (method : KrylovMethod) (iteration : Nat) (cycle : Cycle R n) :
    Solving σ R n (Step R n) :=
  stepBy .plain system method iteration cycle

/-- The beginning of a cycle with plain division. -/
def beginCycle (remaining : Nat) (advance : Cycle R n → Solving σ R n (Solution R n))
    (x : Vector R n) : Solving σ R n (Solution R n) :=
  beginCycleBy .plain system remaining advance x

/-- Steps with plain division, in as many cycles as they need. -/
def advance (restart remaining : Nat) (cycle : Cycle R n) : Solving σ R n (Solution R n) :=
  advanceBy .plain system restart remaining cycle

/-- A solve with plain division. -/
def solve (restart : Nat) (x : Vector R n) : Solving σ R n (Solution R n) :=
  solveBy .plain system restart x

/-- A cycle has to end: its residual is small enough, its basis cannot be
continued, it has taken all its steps, or none remains. -/
def Step.isLast (restart remaining : Nat) (taken : Step R n) : Bool :=
  decide (Scalar.abs taken.cycle.last / system.bNorm ≤ system.tolerance) || taken.next == 0 ||
    remaining == 0 || restart ≤ taken.cycle.columns.length

/-- A step with its rotation. -/
theorem step_eq (method : KrylovMethod) (iteration : Nat) (cycle : Cycle R n) :
    step system method iteration cycle = (do
      let z ← system.precondition cycle.x cycle.newest
      let image ← system.apply cycle.x z
      let (coefficients, remainder) :=
        orthogonalize system (cycle.basis ++ [cycle.newest]) image
      let next := system.op.comm.norm remainder
      let (above, corner) :=
        rotateColumn cycle.rotations (coefficients.headD 0) coefficients.tail
      let length := Scalar.hypot corner next
      if length == 0 then LinearSystem.breakdown cycle.x method iteration .hessenbergSingular
      else
        let rotation : Rotation R := ⟨corner / length, next / length⟩
        let after := { cycle with
          directions := cycle.directions ++ [z]
          columns := cycle.columns ++ [above ++ [length]]
          rotations := cycle.rotations ++ [rotation]
          settled := cycle.settled ++ [cycle.last * rotation.cos]
          last := -rotation.sin * cycle.last }
        pure ⟨after, remainder, next⟩) := rfl

/-- What comes before the first step of a cycle. -/
theorem beginCycle_eq (remaining : Nat) (advance : Cycle R n → Solving σ R n (Solution R n))
    (x : Vector R n) :
    beginCycle system remaining advance x = (do
      let r ← system.residual x
      let norm := system.op.comm.norm r
      let residual := norm / system.bNorm
      if residual ≤ system.tolerance ∨ remaining = 0 then
        pure ⟨x, system.status (system.maxIterations - remaining) residual⟩
      else advance (.start x r norm)) := rfl

/-- A cycle takes all its steps unless it ends before. -/
theorem Step.isLast_iff (restart remaining : Nat) (taken : Step R n) :
    taken.isLast system restart remaining = true ↔
      (Scalar.abs taken.cycle.last / system.bNorm ≤ system.tolerance ∨ taken.next == 0 ∨
        remaining = 0) ∨ restart ≤ taken.cycle.columns.length := by
  simp only [isLast, Bool.or_eq_true, decide_eq_true_eq, beq_iff_eq (α := Nat), or_assoc]

/-- No step is left. -/
theorem advance_zero (restart : Nat) (cycle : Cycle R n) :
    advance system restart 0 cycle =
      pure ⟨cycle.x, system.status system.maxIterations (cycle.last / system.bNorm)⟩ := rfl

/-- The next step. Where its cycle has to end, the next one begins. -/
theorem advance_succ (restart remaining : Nat) (cycle : Cycle R n) :
    advance system restart (remaining + 1) cycle = (do
      let iteration := system.maxIterations - remaining
      let taken ← step system (.gmres restart) iteration cycle
      if taken.isLast system restart remaining then
        beginCycle system remaining (advance system restart remaining) taken.cycle.finish
      else advance system restart remaining taken.extend) := by
  rw [advance, advanceBy]
  refine congrArg _ (funext fun taken => ?_)
  simp only [Cycle.finishBy_plain, Division.divide_plain, Division.divideAll_plain, pure_bind]
  split
  case isTrue ends =>
    rw [if_pos ((Step.isLast_iff ..).mpr (.inl ends))]
    rfl
  case isFalse ends =>
    by_cases full : restart ≤ taken.cycle.columns.length
    · rw [if_pos full, if_pos ((Step.isLast_iff ..).mpr (.inr full))]
      rfl
    · rw [if_neg full, if_neg fun last => ((Step.isLast_iff ..).mp last).elim ends full]
      rfl

/-- A solve begins with a cycle. -/
theorem solve_eq (restart : Nat) (x : Vector R n) :
    solve system restart x =
      beginCycle system system.maxIterations
        (advance system (max restart 1) system.maxIterations) x := rfl

end MinimalResiduals

namespace KrylovSolver

/-- A method with plain division. -/
def runMethod (method : KrylovMethod) (system : LinearSystem σ R n) (x : Vector R n) :
    Solving σ R n (Solution R n) :=
  runMethodBy .plain method system x

/-- A solve with plain division, of vectors that fit the operator. -/
def solve (solver : KrylovSolver R) (op : Operator σ R n)
    (preconditioner : Option (Preconditioner σ R n)) (b x : Vector R n) :
    Solving σ R n (Solution R n) :=
  solver.solveBy .plain op preconditioner b x

/-- A right-hand side of zero needs no method. -/
theorem solve_eq (solver : KrylovSolver R) (op : Operator σ R n)
    (preconditioner : Option (Preconditioner σ R n)) (b x : Vector R n) :
    solver.solve op preconditioner b x =
      if op.comm.norm b == 0 then pure ⟨Vec.fill 0, ⟨0, 0, true⟩⟩
      else runMethod solver.method (solver.systemOf op preconditioner b (op.comm.norm b)) x := rfl

end KrylovSolver

end HexSlab

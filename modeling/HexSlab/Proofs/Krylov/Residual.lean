import HexSlab.Proofs.Exact
import HexSlab.Proofs.Krylov.PlainDivision
import Mathlib.Tactic.Abel

/-!
# The residual that a method follows

Conjugate gradients and stabilized biconjugate gradients never compute the
residual of a later iterate from the system. They move it whenever they move
the solution, along the image of the same direction by the opposite factor, and
this keeps it the residual of the solution, whatever the direction and the
factor are. Minimal residuals return only where a cycle would begin, from a
residual that was just computed. No method relies on its preconditioner.
-/

namespace HexSlab

open Vec

variable {σ R : Type} [Field R] [Roots R] {n : Nat}

namespace LinearSystem

/-- A system in exact arithmetic, on one process, with a right-hand side that
is not zero. -/
structure Exact (system : LinearSystem σ R n) (action : (Fin n → R) →ₗ[R] (Fin n → R)) :
    Prop where
  /-- There is one process. -/
  alone : system.op.comm = .serial
  /-- The operator acts as a linear map. -/
  linear : system.op.Realizes action
  /-- The norm of the right-hand side is its Euclidean length. -/
  bNorm_eq : system.bNorm = euclidean (entries system.b)
  /-- The right-hand side is not zero. -/
  nonzero : entries system.b ≠ 0

/-- A vector is the residual of a solution. -/
def IsResidual (system : LinearSystem σ R n) (action : (Fin n → R) →ₗ[R] (Fin n → R))
    (x r : Vector R n) : Prop :=
  entries r = entries system.b - action (entries x)

variable {system : LinearSystem σ R n} {action : (Fin n → R) →ₗ[R] (Fin n → R)}

/-- Applying the operator of a system applies its linear map. -/
theorem Exact.apply_yields (exact : system.Exact action) (x v : Vector R n) :
    (system.apply x v).Yields fun image => entries image = action (entries v) :=
  (exact.linear v).yields.mapError _

end LinearSystem

variable [LinearOrder R]

/-- What a status says about a solution is so. -/
structure SolveStatus.TrueFor (status : SolveStatus R) (action : (Fin n → R) →ₗ[R] (Fin n → R))
    (limit : Nat) (tolerance : R) (b x : Fin n → R) : Prop where
  /-- A zero system has the solution zero, without a residual. -/
  zero : b = 0 → x = 0 ∧ status.relativeResidual = 0
  /-- Any other residual is that of the solution, relative to the right-hand side. -/
  residual : b ≠ 0 → status.relativeResidual = euclidean (b - action x) / euclidean b
  /-- Convergence is a small enough residual, or a zero system. -/
  converged : status.converged = true ↔ status.relativeResidual ≤ tolerance ∨ b = 0
  /-- The limit of iterations was kept. -/
  iterations : status.iterations ≤ limit

namespace LinearSystem

/-- A vector is the residual of a solution, and a number is its relative norm. -/
structure Follows (system : LinearSystem σ R n) (action : (Fin n → R) →ₗ[R] (Fin n → R))
    (x r : Vector R n) (norm : R) : Prop where
  /-- The residual is that of the solution. -/
  residual : system.IsResidual action x r
  /-- Its relative norm is kept beside it. -/
  norm_eq : norm = system.relativeNorm r

/-- A solution of the system with a true status. -/
def Reports (system : LinearSystem σ R n) (action : (Fin n → R) →ₗ[R] (Fin n → R))
    (solution : Solution R n) : Prop :=
  solution.status.TrueFor action system.maxIterations system.tolerance (entries system.b)
    (entries solution.x)

variable {system : LinearSystem σ R n} {action : (Fin n → R) →ₗ[R] (Fin n → R)}

/-- What a system computes as the residual of a solution is that residual. -/
theorem Exact.residual_yields (exact : system.Exact action) (x : Vector R n) :
    (system.residual x).Yields (system.IsResidual action x) := by
  unfold residual
  refine Attempt.Yields.bind (exact.apply_yields x x) ?_
  intro image known
  apply Attempt.yields_pure
  show entries (axpy 1 system.b (-1) image) = entries system.b - action (entries x)
  rw [entries_axpy, known, one_smul, neg_one_smul, sub_eq_add_neg]

/-- The residual moves with the solution: along the image of the same direction
by the opposite factor. -/
theorem IsResidual.move {x r direction image : Vector R n} (follows : system.IsResidual action x r)
    (known : entries image = action (entries direction)) (factor : R) :
    system.IsResidual action (axpy factor direction 1 x) (axpy (-factor) image 1 r) := by
  have before : entries r = entries system.b - action (entries x) := follows
  rw [IsResidual, entries_axpy, entries_axpy, known, before, map_add, map_smul, one_smul, one_smul,
    neg_smul]
  abel

/-- The relative norm of the residual of a solution. -/
theorem IsResidual.relativeNorm_eq {x r : Vector R n} (follows : system.IsResidual action x r)
    (exact : system.Exact action) :
    system.relativeNorm r =
      euclidean (entries system.b - action (entries x)) / euclidean (entries system.b) := by
  have before : entries r = entries system.b - action (entries x) := follows
  rw [relativeNorm, exact.alone, norm_serial, exact.bNorm_eq, before]

/-- A status with the relative norm of the residual is true. -/
theorem IsResidual.reports {x r : Vector R n} (follows : system.IsResidual action x r)
    (exact : system.Exact action) {iterations : Nat} (bounded : iterations ≤ system.maxIterations) :
    system.Reports action ⟨x, system.status iterations (system.relativeNorm r)⟩ where
  zero := fun zero => absurd zero exact.nonzero
  residual := fun _ => follows.relativeNorm_eq exact
  converged := by
    have nonzero := exact.nonzero
    simp only [status, decide_eq_true_eq, nonzero, or_false]
  iterations := bounded

end LinearSystem

open LinearSystem

variable {system : LinearSystem σ R n} {action : (Fin n → R) →ₗ[R] (Fin n → R)}

namespace ConjugateGradients

/-- Each iteration keeps the residual with the solution, so that a run of
iterations ends with a true status. -/
theorem iterate_yields (exact : system.Exact action) (remaining iteration : Nat)
    (state : State R n) (follows : system.Follows action state.x state.r state.residual)
    (count : iteration + remaining = system.maxIterations + 1) :
    (iterate system remaining iteration state).Yields (system.Reports action) := by
  induction remaining generalizing iteration state with
  | zero =>
    apply Attempt.yields_pure
    rw [follows.norm_eq]
    exact follows.residual.reports exact le_rfl
  | succ remaining ih =>
    rw [iterate_succ]
    refine Attempt.Yields.bind (exact.apply_yields state.x state.p) ?_
    intro image known
    dsimp only
    have moved := follows.residual.move known (state.rz / system.dot state.p image)
    split
    · split
      · apply Attempt.yields_pure
        exact moved.reports exact (by omega)
      · refine Attempt.Yields.bind (Attempt.yields_any _) ?_
        intro z _
        exact ih (iteration + 1) ⟨_, _, _, _, _⟩ ⟨moved, rfl⟩ (by omega)
    · exact Attempt.yields_fail _

/-- Conjugate gradients end with a true status. -/
theorem solve_yields (exact : system.Exact action) (x : Vector R n) :
    (solve system x).Yields (system.Reports action) := by
  rw [solve_eq]
  refine Attempt.Yields.bind (exact.residual_yields x) ?_
  intro r follows
  dsimp only
  split
  · apply Attempt.yields_pure
    exact follows.reports exact (Nat.zero_le _)
  · refine Attempt.Yields.bind (Attempt.yields_any _) ?_
    intro z _
    exact iterate_yields exact system.maxIterations 1 _ ⟨follows, rfl⟩ (by omega)

end ConjugateGradients

namespace BiconjugateGradients

/-- Both steps of an iteration keep the residual with the solution, so that a
run of iterations ends with a true status after either of them. -/
theorem iterate_yields (exact : system.Exact action) (shadow : Vector R n)
    (remaining iteration : Nat) (state : State R n)
    (follows : system.Follows action state.x state.r state.residual)
    (count : iteration + remaining = system.maxIterations + 1) :
    (iterate system shadow remaining iteration state).Yields (system.Reports action) := by
  induction remaining generalizing iteration state with
  | zero =>
    apply Attempt.yields_pure
    rw [follows.norm_eq]
    exact follows.residual.reports exact le_rfl
  | succ remaining ih =>
    rw [iterate_succ]
    dsimp only
    split
    · exact Attempt.yields_fail _
    refine Attempt.Yields.bind (Attempt.yields_any _) ?_
    intro pHat _
    refine Attempt.Yields.bind (exact.apply_yields state.x pHat) ?_
    intro v known
    split
    · exact Attempt.yields_fail _
    have halfway := follows.residual.move known (system.dot shadow state.r / system.dot shadow v)
    split
    · apply Attempt.yields_pure
      exact halfway.reports exact (by omega)
    refine Attempt.Yields.bind (Attempt.yields_any _) ?_
    intro sHat _
    refine Attempt.Yields.bind (exact.apply_yields state.x sHat) ?_
    intro t image
    -- the length of the second step plays no part in what follows
    generalize stabilization system t _ = second
    have moved := halfway.move image second
    split
    · apply Attempt.yields_pure
      exact moved.reports exact (by omega)
    split
    · exact Attempt.yields_fail _
    exact ih (iteration + 1) ⟨_, _, _, _, _, _, _, _⟩ ⟨moved, rfl⟩ (by omega)

/-- Stabilized biconjugate gradients end with a true status. -/
theorem solve_yields (exact : system.Exact action) (x : Vector R n) :
    (solve system x).Yields (system.Reports action) := by
  rw [solve_eq]
  refine Attempt.Yields.bind (exact.residual_yields x) ?_
  intro r follows
  dsimp only
  split
  · apply Attempt.yields_pure
    exact follows.reports exact (Nat.zero_le _)
  · exact iterate_yields exact r system.maxIterations 1 _ ⟨follows, rfl⟩ (by omega)

end BiconjugateGradients

namespace MinimalResiduals

/-- Where a cycle would begin, either the status is true or the cycle begins
with a step to take. -/
theorem beginCycle_yields (exact : system.Exact action) (remaining : Nat)
    (advance : Cycle R n → Solving σ R n (Solution R n))
    (advances : remaining ≠ 0 → ∀ cycle, (advance cycle).Yields (system.Reports action))
    (x : Vector R n) :
    (beginCycle system remaining advance x).Yields (system.Reports action) := by
  rw [beginCycle_eq]
  refine Attempt.Yields.bind (exact.residual_yields x) ?_
  intro r follows
  dsimp only
  split
  · apply Attempt.yields_pure
    exact follows.reports exact (Nat.sub_le _ _)
  · rename_i goesOn
    exact advances (fun none => goesOn (Or.inr none)) _

/-- A step that is not the last of its cycle leaves steps to take. -/
theorem Step.remaining_ne_zero {restart remaining : Nat} {taken : Step R n}
    (goesOn : ¬taken.isLast system restart remaining = true) : remaining ≠ 0 := by
  rintro rfl
  apply goesOn
  simp only [Step.isLast, beq_self_eq_true, Bool.or_true, Bool.true_or]

/-- A cycle with a step to take leads to a true status: the estimate of the
residual that it carries is never reported. -/
theorem advance_yields (exact : system.Exact action) (restart remaining : Nat)
    (left : remaining ≠ 0) (cycle : Cycle R n) :
    (advance system restart remaining cycle).Yields (system.Reports action) := by
  induction remaining generalizing cycle with
  | zero => exact absurd rfl left
  | succ remaining ih =>
    rw [advance_succ]
    refine Attempt.Yields.bind (Attempt.yields_any _) ?_
    intro taken _
    split
    · exact beginCycle_yields exact remaining _ (fun more cycle => ih more cycle) _
    · rename_i goesOn
      exact ih (Step.remaining_ne_zero goesOn) _

/-- Minimal residuals end with a true status. -/
theorem solve_yields (exact : system.Exact action) (restart : Nat) (x : Vector R n) :
    (solve system restart x).Yields (system.Reports action) :=
  beginCycle_yields exact system.maxIterations _
    (fun left cycle => advance_yields exact (max restart 1) system.maxIterations left cycle) x

end MinimalResiduals

end HexSlab

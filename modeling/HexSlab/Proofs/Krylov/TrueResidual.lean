import HexSlab.Proofs.Krylov.Residual

/-!
# The reported residual is the true one

Whatever method, preconditioner, start and limits a solver works with, the
residual of its status is that of the solution it leaves, and convergence is
reported exactly when that residual is accepted.
-/

namespace HexSlab

open Vec

variable {σ R : Type} [Field R] [LinearOrder R] [Roots R] {n : Nat}

namespace KrylovSolver

/-- Every method ends with a true status. -/
theorem runMethod_yields {system : LinearSystem σ R n}
    {action : (Fin n → R) →ₗ[R] (Fin n → R)} (exact : system.Exact action)
    (method : KrylovMethod) (x : Vector R n) :
    (runMethod method system x).Yields (system.Reports action) := by
  cases method with
  | cg => exact ConjugateGradients.solve_yields exact x
  | gmres restart => exact MinimalResiduals.solve_yields exact restart x
  | bicgstab => exact BiconjugateGradients.solve_yields exact x

variable [IsStrictOrderedRing R]

/-- A solve of vectors that fit ends with a true status. -/
theorem solve_yields (solver : KrylovSolver R) (op : Operator σ R n)
    (preconditioner : Option (Preconditioner σ R n)) (b x : Vector R n)
    {action : (Fin n → R) →ₗ[R] (Fin n → R)}
    (root_zero : ∀ a : R, 0 ≤ a → (Roots.sqrt a = 0 ↔ a = 0))
    (alone : op.comm = .serial) (linear : op.Realizes action) :
    (solver.solve op preconditioner b x).Yields fun solution =>
      solution.status.TrueFor action solver.maxIterations solver.tolerance (entries b)
        (entries solution.x) := by
  have norm : op.comm.norm b = euclidean (entries b) := by rw [alone, norm_serial]
  rw [solve_eq]
  split
  · rename_i vanishes
    have zero : entries b = 0 := by
      rw [← euclidean_eq_zero_iff root_zero, ← norm]
      exact eq_of_beq vanishes
    apply Attempt.yields_pure
    exact {
      zero := fun _ => ⟨entries_zero, rfl⟩
      residual := fun nonzero => absurd zero nonzero
      converged := by simp only [zero, or_true]
      iterations := Nat.zero_le _ }
  · rename_i remains
    refine runMethod_yields ⟨alone, linear, norm, ?_⟩ solver.method x
    intro zero
    apply remains
    rw [norm, (euclidean_eq_zero_iff root_zero (entries b)).mpr zero]
    exact beq_self_eq_true 0

/-- A solve of vectors of any length ends with a true status for the vectors
that they are. -/
theorem solveChecked_yields (solver : KrylovSolver R) (op : Operator σ R n)
    (preconditioner : Option (Preconditioner σ R n)) (b x : Array R)
    {action : (Fin n → R) →ₗ[R] (Fin n → R)}
    (root_zero : ∀ a : R, 0 ≤ a → (Roots.sqrt a = 0 ↔ a = 0))
    (alone : op.comm = .serial) (linear : op.Realizes action) :
    (solver.solveChecked op preconditioner b x).Yields fun result =>
      ∃ rhs solution : Vector R n, rhs.toArray = b ∧ solution.toArray = result.1 ∧
        result.2.TrueFor action solver.maxIterations solver.tolerance (entries rhs)
          (entries solution) := by
  unfold solveChecked solveCheckedBy
  rcases checked : checkPair n b x with error | ⟨rhs, start⟩
  · exact Attempt.yields_fail _
  · have told := solve_yields solver op preconditioner rhs start root_zero alone linear
    refine Attempt.Yields.bind (told.mapError _) ?_
    intro solution told
    apply Attempt.yields_pure
    exact ⟨rhs, solution.x, (checkPair_eq_ok_iff.mp checked).1, rfl, told⟩

/-- The residual that a solve reports is the true one. In exact arithmetic on
one process, for every linear operator, right-hand side, start, tolerance and
limit, every method and every preconditioner: where a solve succeeds, its
status is true for the solution that it leaves. -/
theorem solve_reports_true_residual (solver : KrylovSolver R) (op : Operator σ R n)
    (preconditioner : Option (Preconditioner σ R n)) (b x solved : Array R)
    (status : SolveStatus R) (state after : σ) (action : (Fin n → R) →ₗ[R] (Fin n → R))
    (root_zero : ∀ a : R, 0 ≤ a → (Roots.sqrt a = 0 ↔ a = 0))
    (alone : op.comm = .serial) (linear : op.Realizes action)
    (done : (solver.solveChecked op preconditioner b x).run state = (.ok (solved, status), after)) :
    ∃ rhs solution : Vector R n, rhs.toArray = b ∧ solution.toArray = solved ∧
      status.TrueFor action solver.maxIterations solver.tolerance (entries rhs)
        (entries solution) :=
  solveChecked_yields solver op preconditioner b x root_zero alone linear state
    (solved, status) after done

/-- A preconditioner that answers each call with a larger multiple of what it
is given. -/
def growing (n : Nat) : Preconditioner Nat Rat n where
  applyInverse := fun r _ calls => (.ok (r.map (((calls + 1 : Nat) : Rat) * ·)), calls + 1)

/-- One iteration of conjugate gradients with a preconditioner that varies. -/
theorem solve_reports_true_residual_growing :
    ∃ rhs solution : Vector Rat 2, rhs.toArray = #[3, 4] ∧ solution.toArray = #[75 / 34, 50 / 17] ∧
      (⟨1, 6 / 17, false⟩ : SolveStatus Rat).TrueFor (diagonal ![2, 1]) 1 (1 / 10)
        (entries rhs) (entries solution) := by
  have found : (((⟨.cg, 1, 1 / 10⟩ : KrylovSolver Rat).solveChecked
      (Operator.ofAction (diagonal ![2, 1]) Nat) (some (growing 2)) #[3, 4]
      #[0, 0]).run 0).1.toOption = some (#[75 / 34, 50 / 17], ⟨1, 6 / 17, false⟩) := by
    decide +kernel
  exact solve_reports_true_residual ⟨.cg, 1, 1 / 10⟩ _ (some (growing 2)) #[3, 4] #[0, 0]
    #[75 / 34, 50 / 17] ⟨1, 6 / 17, false⟩ 0 _ _ Roots.sqrt_rat_eq_zero_iff rfl
    (Operator.realizes_ofAction _ Nat) (Attempt.run_eq_ok found)

end KrylovSolver

end HexSlab

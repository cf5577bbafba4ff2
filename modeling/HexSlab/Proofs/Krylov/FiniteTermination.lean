import HexSlab.Proofs.Krylov.ConjugateDirections
import HexSlab.Proofs.Krylov.TrueResidual

/-!
# Conjugate gradients end

For a positive definite operator and a positive definite preconditioner every
step of conjugate gradients is one of conjugate directions. So no step breaks
down, and after at most as many steps as a vector has places the residual is
zero, if it was not accepted before.
-/

namespace HexSlab

open Vec

variable {σ R : Type} [Field R] {n : Nat}

/-- A preconditioner never fails and acts as a linear map. -/
def Preconditioner.Realizes (preconditioner : Preconditioner σ R n)
    (inverse : (Fin n → R) →ₗ[R] (Fin n → R)) : Prop :=
  ∀ r, (preconditioner.applyInverse r (fill 0)).Attains fun z => entries z = inverse (entries r)

/-- The preconditioner of a linear map. -/
def Preconditioner.ofAction (inverse : (Fin n → R) →ₗ[R] (Fin n → R)) (σ : Type) :
    Preconditioner σ R n where
  applyInverse := fun r _ => pure (Vector.ofFn (inverse (entries r)))

/-- Every linear map has a preconditioner that acts as it does. -/
theorem Preconditioner.realizes_ofAction (inverse : (Fin n → R) →ₗ[R] (Fin n → R)) (σ : Type) :
    (Preconditioner.ofAction inverse σ).Realizes inverse := by
  intro r
  exact Attempt.attains_pure (entries_ofFn _)

/-- A solve converged within a number of iterations. -/
structure SolveStatus.ConvergedWithin (status : SolveStatus R) (limit : Nat) : Prop where
  /-- It converged. -/
  converged : status.converged = true
  /-- It took no more iterations. -/
  iterations : status.iterations ≤ limit

namespace LinearSystem

variable [Roots R] {system : LinearSystem σ R n} {action : (Fin n → R) →ₗ[R] (Fin n → R)}

/-- Applying the operator of a system never fails. -/
theorem Exact.apply_attains (exact : system.Exact action) (x v : Vector R n) :
    (system.apply x v).Attains fun image => entries image = action (entries v) :=
  (exact.linear v).mapError _

variable [LinearOrder R]

/-- Preconditioning in a system never fails and applies a linear map. -/
def Preconditions (system : LinearSystem σ R n) (inverse : (Fin n → R) →ₗ[R] (Fin n → R)) : Prop :=
  ∀ x r, (system.precondition x r).Attains fun z => entries z = inverse (entries r)

/-- A system without a preconditioner, or with one that acts as a linear map of
some kind, preconditions by a map of that kind, if the identity is one. -/
theorem exists_preconditions {kind : ((Fin n → R) →ₗ[R] (Fin n → R)) → Prop}
    (identity : kind LinearMap.id) (system : LinearSystem σ R n)
    (preconditioned : ∀ preconditioner ∈ system.preconditioner,
      ∃ inverse, kind inverse ∧ preconditioner.Realizes inverse) :
    ∃ inverse, kind inverse ∧ system.Preconditions inverse := by
  rcases given : system.preconditioner with _ | preconditioner
  · refine ⟨LinearMap.id, identity, fun x r => ?_⟩
    rw [precondition, given]
    exact Attempt.attains_pure rfl
  · obtain ⟨inverse, suits, realizes⟩ := preconditioned preconditioner given
    refine ⟨inverse, suits, fun x r => ?_⟩
    rw [precondition, given]
    exact (realizes r).mapError _

/-- The residual of a solution can always be computed. -/
theorem Exact.residual_attains (exact : system.Exact action) (x : Vector R n) :
    (system.residual x).Attains (system.IsResidual action x) := by
  have succeeds : (system.residual x).Attains fun _ => True :=
    (exact.apply_attains x x).bind fun _ _ => Attempt.attains_pure trivial
  exact (succeeds.and (exact.residual_yields x)).mono fun _ both => both.2

/-- The inner product of a system is that of the entries. -/
theorem Exact.dot_eq (exact : system.Exact action) (x y : Vector R n) :
    system.dot x y = entries x ⬝ᵥ entries y := by
  rw [dot, exact.alone, dot_serial]

/-- A residual that is not accepted is not zero. -/
theorem Exact.residual_ne_zero [IsStrictOrderedRing R] (exact : system.Exact action)
    (roots : SquareRoots R) (tolerant : 0 ≤ system.tolerance) {r : Vector R n}
    (refused : ¬system.relativeNorm r ≤ system.tolerance) : entries r ≠ 0 := by
  intro zero
  have none : system.relativeNorm r = 0 := by
    rw [relativeNorm, exact.alone, norm_serial, (euclidean_eq_zero roots _).mpr zero, zero_div]
  rw [none] at refused
  exact refused tolerant

end LinearSystem

open LinearSystem

namespace ConjugateGradients

variable [LinearOrder R] {action inverse : (Fin n → R) →ₗ[R] (Fin n → R)} {state : State R n}
  {explored : Submodule R (Fin n → R)} {iteration : Nat}

/-- An iteration may start: its direction is conjugate to those before it, of
which there were as many as iterations. -/
structure State.Ready (state : State R n) (action inverse : (Fin n → R) →ₗ[R] (Fin n → R))
    (explored : Submodule R (Fin n → R)) (iteration : Nat) : Prop where
  /-- The direction is conjugate to those before it. -/
  conjugate : Conjugate action inverse explored (entries state.r) (entries state.p)
  /-- The residual is not zero. -/
  nonzero : entries state.r ≠ 0
  /-- The inner product that is kept is that of the residual. -/
  rz_eq : state.rz = entries state.r ⬝ᵥ inverse (entries state.r)
  /-- Every earlier iteration added a dimension. -/
  steps : iteration ≤ Module.finrank R explored + 1

/-- No more iterations start than a vector has places. -/
theorem State.Ready.iteration_le (ready : state.Ready action inverse explored iteration)
    (definite : PositiveDefinite inverse) : iteration ≤ n := by
  have proper := ready.conjugate.finrank_lt definite ready.nonzero
  have steps := ready.steps
  omega

variable [Roots R] {system : LinearSystem σ R n}

/-- The direction of an iteration has positive energy, so it does not break
down. -/
theorem State.Ready.energy_pos (ready : state.Ready action inverse explored iteration)
    (exact : system.Exact action) (positive : PositiveDefinite action)
    (definite : PositiveDefinite inverse) {image : Vector R n}
    (known : entries image = action (entries state.p)) : 0 < system.dot state.p image := by
  rw [exact.dot_eq, known]
  exact ready.conjugate.energy_pos positive definite ready.nonzero

/-- The step of an iteration is one of conjugate directions. -/
theorem State.Ready.conjugateStep (ready : state.Ready action inverse explored iteration)
    (exact : system.Exact action) (positive : PositiveDefinite action)
    (definite : PositiveDefinite inverse) {image moved z : Vector R n} {alpha : R}
    (known : entries image = action (entries state.p))
    (length : alpha = state.rz / system.dot state.p image)
    (move : moved = (state.step alpha image).r)
    (solved : entries z = inverse (entries moved)) :
    ConjugateStep action inverse (entries state.r) (entries state.p) (entries moved) alpha
      (system.dot moved z / state.rz) where
  move := by
    have stepped : moved = axpy (-alpha) image 1 state.r := move
    rw [stepped, entries_axpy, known, one_smul, neg_smul, neg_add_eq_sub]
  length := by
    have energy := (ready.energy_pos exact positive definite known).ne'
    have energy_eq : system.dot state.p image = entries state.p ⬝ᵥ action (entries state.p) := by
      rw [exact.dot_eq, known]
    rw [length, ← energy_eq, div_mul_cancel₀ _ energy, ready.rz_eq]
  turn := by
    have remains : state.rz ≠ 0 := by
      rw [ready.rz_eq]
      exact (definite.positive _ ready.nonzero).ne'
    rw [← ready.rz_eq, div_mul_cancel₀ _ remains, exact.dot_eq, solved]

/-- An iteration whose residual is not accepted makes the next one ready, with
its direction explored. -/
theorem State.Ready.next (ready : state.Ready action inverse explored iteration)
    (exact : system.Exact action) (positive : PositiveDefinite action)
    (definite : PositiveDefinite inverse) {image moved z : Vector R n} {alpha : R}
    (known : entries image = action (entries state.p))
    (length : alpha = state.rz / system.dot state.p image)
    (move : moved = (state.step alpha image).r)
    (solved : entries z = inverse (entries moved)) (remains : entries moved ≠ 0)
    (x : Vector R n) (residual : R) :
    State.Ready
      ⟨x, moved, axpy 1 z (system.dot moved z / state.rz) state.p, system.dot moved z, residual⟩
      action inverse (explored ⊔ Submodule.span R {entries state.p}) (iteration + 1) where
  conjugate := by
    have step := ready.conjugateStep exact positive definite known length move solved
    have kept := step.keeps ready.conjugate positive definite ready.nonzero
    rw [entries_axpy, one_smul, solved]
    exact kept
  nonzero := remains
  rz_eq := by rw [exact.dot_eq, solved]
  steps := by
    have grown := ready.conjugate.finrank_lt_sup definite ready.nonzero
    have steps := ready.steps
    omega

variable [IsStrictOrderedRing R]

/-- Iterations converge before there are more of them than places in a vector. -/
theorem iterate_attains (exact : system.Exact action) (roots : SquareRoots R)
    (positive : PositiveDefinite action) (definite : PositiveDefinite inverse)
    (preconditions : system.Preconditions inverse) (tolerant : 0 ≤ system.tolerance)
    (enough : n ≤ system.maxIterations) (remaining iteration : Nat) (state : State R n)
    (explored : Submodule R (Fin n → R))
    (ready : state.Ready action inverse explored iteration)
    (count : iteration + remaining = system.maxIterations + 1) :
    (iterate system remaining iteration state).Attains fun solution =>
      solution.status.ConvergedWithin n := by
  have within := ready.iteration_le definite
  -- by induction on the iterations left: what was explored grows with each of them, so they
  -- cannot run out
  induction remaining generalizing iteration state explored with
  | zero => omega
  | succ remaining ih =>
    rw [iterate_succ]
    refine (exact.apply_attains state.x state.p).bind ?_
    intro image known
    dsimp only
    rw [if_pos (ready.energy_pos exact positive definite known)]
    split
    · rename_i accepted
      exact Attempt.attains_pure ⟨decide_eq_true accepted, within⟩
    · rename_i refused
      refine (preconditions _ _).bind ?_
      intro z solved
      have remains := exact.residual_ne_zero roots tolerant refused
      have next := ready.next exact positive definite known rfl rfl solved remains
        (state.step (state.rz / system.dot state.p image) image).x
        (system.relativeNorm (state.step (state.rz / system.dot state.p image) image).r)
      exact ih (iteration + 1) _ _ next (by omega) (next.iteration_le definite)

/-- Conjugate gradients converge within as many iterations as a vector has
places. -/
theorem solve_attains (exact : system.Exact action) (roots : SquareRoots R)
    (positive : PositiveDefinite action) (definite : PositiveDefinite inverse)
    (preconditions : system.Preconditions inverse) (tolerant : 0 ≤ system.tolerance)
    (enough : n ≤ system.maxIterations) (x : Vector R n) :
    (solve system x).Attains fun solution => solution.status.ConvergedWithin n := by
  rw [solve_eq]
  refine (exact.residual_attains x).bind ?_
  intro r follows
  dsimp only
  split
  · rename_i accepted
    exact Attempt.attains_pure ⟨decide_eq_true accepted, Nat.zero_le n⟩
  · rename_i refused
    refine (preconditions x r).bind ?_
    intro z solved
    refine iterate_attains exact roots positive definite preconditions tolerant enough
      system.maxIterations 1 _ ⊥ ?_ (Nat.add_comm 1 _)
    exact {
      conjugate := by
        rw [solved]
        exact conjugate_bot action inverse (entries r)
      nonzero := exact.residual_ne_zero roots tolerant refused
      rz_eq := by rw [exact.dot_eq, solved]
      steps := Nat.le_add_left 1 _ }

end ConjugateGradients

namespace KrylovSolver

variable [LinearOrder R] [Roots R] [IsStrictOrderedRing R]
  {action : (Fin n → R) →ₗ[R] (Fin n → R)}

/-- A solve with conjugate gradients of vectors that fit converges within as
many iterations as a vector has places. -/
theorem solve_attains (solver : KrylovSolver R) (op : Operator σ R n)
    (preconditioner : Option (Preconditioner σ R n)) (b x : Vector R n)
    (chosen : solver.method = .cg) (roots : SquareRoots R) (alone : op.comm = .serial)
    (linear : op.Realizes action) (positive : PositiveDefinite action)
    (preconditioned : ∀ given ∈ preconditioner,
      ∃ inverse, PositiveDefinite inverse ∧ given.Realizes inverse)
    (tolerant : 0 ≤ solver.tolerance) (enough : n ≤ solver.maxIterations) :
    (solver.solve op preconditioner b x).Attains fun solution =>
      solution.status.ConvergedWithin n := by
  have norm : op.comm.norm b = euclidean (entries b) := by rw [alone, norm_serial]
  rw [solve_eq]
  split
  · exact Attempt.attains_pure ⟨rfl, Nat.zero_le n⟩
  · rename_i remains
    have nonzero : entries b ≠ 0 := by
      intro zero
      apply remains
      rw [norm, (euclidean_eq_zero roots _).mpr zero]
      exact beq_self_eq_true 0
    obtain ⟨inverse, definite, preconditions⟩ := LinearSystem.exists_preconditions
      positiveDefinite_id (solver.systemOf op preconditioner b (op.comm.norm b)) preconditioned
    rw [chosen]
    exact ConjugateGradients.solve_attains ⟨alone, linear, norm, nonzero⟩ roots positive definite
      preconditions tolerant enough x

/-- Where no residual but zero is accepted, a converged solution is exact. -/
theorem solves_of_converged {status : SolveStatus R} {limit : Nat} {b x : Fin n → R}
    (told : status.TrueFor action limit 0 b x) (roots : SquareRoots R)
    (converged : status.converged = true) : action x = b := by
  by_cases zero : b = 0
  · rw [zero, (told.zero zero).1, map_zero]
  · have small : status.relativeResidual ≤ 0 :=
      (told.converged.mp converged).resolve_right zero
    have length : euclidean b ≠ 0 := fun none => zero ((euclidean_eq_zero roots b).mp none)
    have nonneg : 0 ≤ status.relativeResidual := by
      rw [told.residual zero]
      exact div_nonneg (euclidean_nonneg roots _) (euclidean_nonneg roots _)
    have none : euclidean (b - action x) / euclidean b = 0 := by
      rw [← told.residual zero]
      exact le_antisymm small nonneg
    have gone : b - action x = 0 :=
      (euclidean_eq_zero roots _).mp ((div_eq_zero_iff.mp none).resolve_right length)
    exact (sub_eq_zero.mp gone).symm

/-- Conjugate gradients end. In exact arithmetic on one process, for every
symmetric positive definite operator, without a preconditioner or with one that
is a symmetric positive definite map, for every right-hand side, start and
tolerance: if at least as many iterations are allowed as a vector has places,
a solve succeeds, converges within that many iterations, and with a tolerance
of zero leaves an exact solution. -/
theorem cg_converges_within_dimension (solver : KrylovSolver R) (op : Operator σ R n)
    (preconditioner : Option (Preconditioner σ R n)) (b x : Vector R n)
    (action : (Fin n → R) →ₗ[R] (Fin n → R)) (chosen : solver.method = .cg)
    (roots : SquareRoots R) (alone : op.comm = .serial) (linear : op.Realizes action)
    (positive : PositiveDefinite action)
    (preconditioned : ∀ given ∈ preconditioner,
      ∃ inverse, PositiveDefinite inverse ∧ given.Realizes inverse)
    (tolerant : 0 ≤ solver.tolerance) (enough : n ≤ solver.maxIterations) :
    (solver.solveChecked op preconditioner b.toArray x.toArray).Attains fun result =>
      ∃ solution : Vector R n, solution.toArray = result.1 ∧ result.2.ConvergedWithin n ∧
        (solver.tolerance = 0 → action (entries solution) = entries b) := by
  have fits : checkPair n b.toArray x.toArray = .ok (b, x) := checkPair_eq_ok_iff.mpr ⟨rfl, rfl⟩
  have ends := solve_attains solver op preconditioner b x chosen roots alone linear positive
    preconditioned tolerant enough
  have told := solve_yields solver op preconditioner b x roots.eq_zero_iff alone linear
  unfold solveChecked solveCheckedBy
  rw [fits]
  refine ((ends.and told).mapError _).bind ?_
  rintro solution ⟨within, told⟩
  refine Attempt.attains_pure ⟨solution.x, rfl, within, ?_⟩
  intro exact
  rw [exact] at told
  exact solves_of_converged told roots within.converged

/-- Two iterations with different scalings of the entries in the operator and
in the preconditioner. -/
theorem cg_converges_within_dimension_scaled :
    ((⟨.cg, 2, 0⟩ : KrylovSolver ℝ).solveChecked (Operator.ofAction (diagonal ![2, 1]) Nat)
      (some (Preconditioner.ofAction (diagonal ![3, 5]) Nat)) #[3, 4] #[1, 0]).Attains
      fun result => ∃ solution : Vector ℝ 2, solution.toArray = result.1 ∧
        result.2.ConvergedWithin 2 ∧ diagonal ![2, 1] (entries solution) = entries #v[3, 4] := by
  have positive : PositiveDefinite (diagonal (![2, 1] : Fin 2 → ℝ)) := by
    apply positiveDefinite_diagonal
    intro i
    fin_cases i <;> norm_num
  have definite : PositiveDefinite (diagonal (![3, 5] : Fin 2 → ℝ)) := by
    apply positiveDefinite_diagonal
    intro i
    fin_cases i <;> norm_num
  have preconditioned :
      ∀ given ∈ some (Preconditioner.ofAction (diagonal (![3, 5] : Fin 2 → ℝ)) Nat),
        ∃ inverse, PositiveDefinite inverse ∧ given.Realizes inverse := by
    intro given chosen
    rw [← Option.some.inj chosen]
    exact ⟨diagonal ![3, 5], definite, Preconditioner.realizes_ofAction _ Nat⟩
  have solved := cg_converges_within_dimension ⟨.cg, 2, 0⟩ _ _ #v[3, 4] #v[1, 0]
    (diagonal ![2, 1]) rfl squareRoots_real rfl (Operator.realizes_ofAction _ Nat) positive
    preconditioned le_rfl le_rfl
  refine solved.mono ?_
  rintro result ⟨solution, left, within, solves⟩
  exact ⟨solution, left, within, solves rfl⟩

end KrylovSolver

end HexSlab

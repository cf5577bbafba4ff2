import HexSlab.Krylov.Preconditioning
import HexSlab.Proofs.Krylov.FiniteTermination
import HexSlab.Proofs.Krylov.NonzeroDivisors
import HexSlab.Sparse.Csr

/-!
# Answers across the residual

Conjugate gradients divide by the energy of a direction, which has been found positive,
and by the inner product of the last residual and its preconditioned residual, which
nothing compares with zero. A direction without such a product is the preconditioned
residual itself. So a division by zero takes a preconditioner that answers a residual
with a vector across it, along which the operator has positive energy all the same.
Conversely every such answer is divided by, as soon as a solve meets it.
-/

namespace HexSlab

open Attempt Division Vec

variable {σ R : Type} [Field R] {n : Nat}

/-- A divisor that is zero is an inner product that was answered so. -/
def Divisor.IsZeroOnlyIf (answered : Prop) (place : Divisor) (divisor : R) : Prop :=
  divisor = 0 → place = .preconditioned ∧ answered

/-- A divisor that is not zero divides anywhere. -/
theorem Divisor.isZeroOnlyIf {answered : Prop} {place : Divisor} {divisor : R}
    (nonzero : divisor ≠ 0) : place.IsZeroOnlyIf answered divisor :=
  fun zero => absurd zero nonzero

variable [LinearOrder R]

namespace Preconditioner

/-- An answer to a residual is orthogonal to it, and has positive energy. -/
def Across (action : (Fin n → R) →ₗ[R] (Fin n → R)) (r z : Vector R n) : Prop :=
  entries r ⬝ᵥ entries z = 0 ∧ 0 < entries z ⬝ᵥ action (entries z)

/-- A residual that is not zero is answered across it, in some state of the run. -/
def AnswersAcross (preconditioner : Preconditioner σ R n)
    (action : (Fin n → R) →ₗ[R] (Fin n → R)) (r : Vector R n) : Prop :=
  entries r ≠ 0 ∧ ∃ state z after,
    (preconditioner.applyInverse r (fill 0)).run state = (.ok z, after) ∧ Across action r z

/-- The outcome of an application does not depend on the state of the run. -/
def Steady (preconditioner : Preconditioner σ R n) : Prop :=
  ∀ r y state other, ((preconditioner.applyInverse r y).run state).1 =
    ((preconditioner.applyInverse r y).run other).1

/-- A steady preconditioner that has answered across a residual always does. -/
theorem Steady.attains_across {preconditioner : Preconditioner σ R n}
    (steady : preconditioner.Steady) {action : (Fin n → R) →ₗ[R] (Fin n → R)} {r : Vector R n}
    (answers : preconditioner.AnswersAcross action r) :
    (preconditioner.applyInverse r (fill 0)).Attains (Across action r) := by
  obtain ⟨-, first, z, after, answered, across⟩ := answers
  intro state
  have same := steady r (fill 0) state first
  rw [answered] at same
  exact ⟨z, ((preconditioner.applyInverse r (fill 0)).run state).2, Prod.ext same rfl, across⟩

end Preconditioner

variable [Roots R] {system : LinearSystem σ R n} {action : (Fin n → R) →ₗ[R] (Fin n → R)}

/-- Some residual is answered across it by the preconditioner of a system. -/
def LinearSystem.IsAnsweredAcross (system : LinearSystem σ R n)
    (action : (Fin n → R) →ₗ[R] (Fin n → R)) : Prop :=
  ∃ preconditioner ∈ system.preconditioner, ∃ r, preconditioner.AnswersAcross action r

section Across

variable [IsStrictOrderedRing R]

/-- An answer across a residual comes from a preconditioner: no residual but zero is
orthogonal to itself. -/
theorem LinearSystem.precondition_yields_across (system : LinearSystem σ R n)
    (action : (Fin n → R) →ₗ[R] (Fin n → R)) (x : Vector R n) {r : Vector R n}
    (remains : entries r ≠ 0) :
    (system.precondition x r).Yields fun z =>
      Preconditioner.Across action r z → system.IsAnsweredAcross action := by
  rcases given : system.preconditioner with _ | preconditioner
  · rw [precondition, given]
    refine yields_pure fun across => ?_
    exact absurd (dotProduct_self_eq_zero.mp across.1) remains
  · rw [precondition, given]
    have answers : (preconditioner.applyInverse r (fill 0)).Yields fun z =>
        Preconditioner.Across action r z → system.IsAnsweredAcross action :=
      fun state z after run across =>
        ⟨preconditioner, given, r, remains, state, z, after, run, across⟩
    exact answers.mapError _

/-- The norm of a vector is zero for the zero vector only, if roots are zero for zero
only. -/
theorem Communicator.norm_eq_zero_iff {comm : Communicator R} (alone : comm = .serial)
    (root_zero : ∀ a : R, 0 ≤ a → (Roots.sqrt a = 0 ↔ a = 0)) (r : Vector R n) :
    comm.norm r = 0 ↔ entries r = 0 := by
  rw [alone, norm_serial, euclidean_eq_zero_iff root_zero]

/-- A residual that is not accepted is not zero. -/
theorem LinearSystem.Exact.remains (exact : system.Exact action)
    (root_zero : ∀ a : R, 0 ≤ a → (Roots.sqrt a = 0 ↔ a = 0)) (tolerant : 0 ≤ system.tolerance)
    {r : Vector R n} (refused : ¬system.relativeNorm r ≤ system.tolerance) : entries r ≠ 0 :=
  (Communicator.norm_eq_zero_iff exact.alone root_zero r).not.mp
    (MinimalResiduals.norm_ne_zero tolerant refused)

end Across

namespace ConjugateGradients

/-- A direction with nothing to divide by, but with positive energy, is an answer across
its residual. -/
def State.Suspects (state : State R n) (system : LinearSystem σ R n)
    (action : (Fin n → R) →ₗ[R] (Fin n → R)) : Prop :=
  state.rz = 0 → 0 < entries state.p ⬝ᵥ action (entries state.p) →
    system.IsAnsweredAcross action

/-- The direction of an answer without an inner product is the answer alone. -/
theorem entries_direction_of_zero (z p : Vector R n) {rz : R} (none : rz = 0) (earlier : R) :
    entries (axpy 1 z (rz / earlier) p) = entries z := by
  rw [entries_axpy, none, zero_div, zero_smul, one_smul, add_zero]

/-- Along an answer across the residual nothing is moved. -/
theorem step_r_of_zero (state : State R n) {alpha : R} (still : alpha = 0) (image : Vector R n) :
    (state.step alpha image).r = state.r := by
  rw [← entries_inj]
  show entries (axpy (-alpha) image 1 state.r) = entries state.r
  rw [entries_axpy, still, neg_zero, zero_smul, one_smul, zero_add]

variable [IsStrictOrderedRing R]

/-- An iteration divides by zero only after an answer across the residual. -/
theorem records_iterate (exact : system.Exact action)
    (root_zero : ∀ a : R, 0 ≤ a → (Roots.sqrt a = 0 ↔ a = 0)) (tolerant : 0 ≤ system.tolerance)
    (nonzero : system.bNorm ≠ 0) (remaining iteration : Nat) (state : State R n)
    (suspects : state.Suspects system action) :
    (iterateBy .recorded system.recorded remaining iteration state).Records
      (iterate system remaining iteration state)
      (Divisor.IsZeroOnlyIf (system.IsAnsweredAcross action)) := by
  induction remaining generalizing iteration state with
  | zero => exact records_pure _
  | succ remaining ih =>
    rw [iterateBy, iterate_succ]
    refine (system.records_apply _ _).bind (exact.apply_yields _ _) fun image known => ?_
    refine records_ite (fun positive => ?_) fun _ => records_fail _
    refine (records_divide (Divisor.isZeroOnlyIf positive.ne')).bind_pure ?_
    refine (LinearSystem.records_relativeNorm (Divisor.isZeroOnlyIf nonzero) _).bind_pure ?_
    refine records_ite (fun _ => records_pure _) fun refused => ?_
    have remains := exact.remains root_zero tolerant refused
    refine (system.records_precondition _ _).bind
      (system.precondition_yields_across action _ remains)
      fun z answered => ?_
    have guarded : Divisor.preconditioned.IsZeroOnlyIf (system.IsAnsweredAcross action)
        state.rz := by
      rw [LinearSystem.dot_recorded, exact.dot_eq, known] at positive
      exact fun zero => ⟨rfl, suspects zero positive⟩
    refine (records_divide guarded).bind_pure (ih _ _ ?_)
    intro none energy
    rw [entries_direction_of_zero z _ none] at energy
    exact answered ⟨(exact.dot_eq _ z).symm.trans none, energy⟩

/-- A solve divides by zero only after an answer across a residual. -/
theorem records_solve (exact : system.Exact action)
    (root_zero : ∀ a : R, 0 ≤ a → (Roots.sqrt a = 0 ↔ a = 0)) (tolerant : 0 ≤ system.tolerance)
    (nonzero : system.bNorm ≠ 0) (x : Vector R n) :
    (solveBy .recorded system.recorded x).Records (solve system x)
      (Divisor.IsZeroOnlyIf (system.IsAnsweredAcross action)) := by
  rw [solve_eq]
  refine (system.records_residual x).bind (yields_any _) fun r _ => ?_
  refine (LinearSystem.records_relativeNorm (Divisor.isZeroOnlyIf nonzero) r).bind_pure ?_
  refine records_ite (fun _ => records_pure _) fun refused => ?_
  have remains := exact.remains root_zero tolerant refused
  refine (system.records_precondition _ _).bind
    (system.precondition_yields_across action _ remains) fun z answered => ?_
  refine records_iterate exact root_zero tolerant nonzero _ 1 _ fun none energy => ?_
  exact answered ⟨(exact.dot_eq r z).symm.trans none, energy⟩

/-- An answer across the first residual is divided by, if there is an iteration at all and
the residual is always answered so. -/
theorem makes_zero (exact : system.Exact action)
    (root_zero : ∀ a : R, 0 ≤ a → (Roots.sqrt a = 0 ↔ a = 0)) (tolerant : 0 ≤ system.tolerance)
    (nonzero : system.bNorm ≠ 0) (limit : system.maxIterations ≠ 0) {x : Vector R n}
    (meets : ∀ r, system.IsResidual action x r → ¬system.relativeNorm r ≤ system.tolerance ∧
      system.IsAnsweredAcross action ∧
      ∀ y, (system.precondition y r).Attains (Preconditioner.Across action r)) :
    (solveBy .recorded system.recorded x).Makes (.preconditioned, 0) := by
  obtain ⟨remaining, count⟩ := Nat.exists_eq_succ_of_ne_zero limit
  refine (LinearSystem.attains_residual (exact.residual_attains x)).makes fun r residual => ?_
  obtain ⟨refused, answered, answers⟩ := meets r residual
  refine (attains_divide _ _ _).makes fun norm measured => ?_
  rw [if_neg (measured ▸ refused)]
  refine (LinearSystem.attains_precondition (answers x)).makes fun z across => ?_
  have none : system.recorded.dot r z = 0 := (exact.dot_eq r z).trans across.1
  rw [show system.recorded.maxIterations = remaining + 1 from count, iterateBy]
  refine (LinearSystem.attains_apply (exact.apply_attains x z)).makes fun image known => ?_
  have positive : 0 < system.recorded.dot z image := by
    rw [LinearSystem.dot_recorded, exact.dot_eq, known]
    exact across.2
  dsimp only
  rw [if_pos positive]
  refine (attains_divide _ _ _).makes fun alpha still => ?_
  rw [none, zero_div] at still
  rw [step_r_of_zero _ still]
  refine (attains_divide _ _ _).makes fun again measured => ?_
  rw [if_neg (measured ▸ refused)]
  refine (LinearSystem.attains_precondition (answers _)).makes fun other across => ?_
  rw [none]
  refine (makes_divide _ _ _).bind fun beta => ?_
  exact (records_iterate exact root_zero tolerant nonzero remaining _ _ fun _ _ => answered).keeps

end ConjugateGradients

namespace KrylovSolver

/-- When conjugate gradients divide by zero. -/
structure CgDivisions (op : Operator σ R n) (preconditioner : Option (Preconditioner σ R n))
    (action : (Fin n → R) →ₗ[R] (Fin n → R)) : Prop where
  /-- A divisor is zero only where a residual was answered across it, and only the inner
  product of that residual and its answer is. -/
  only_across : ∀ (maxIterations : Nat) (tolerance : R) (b x : Array R), 0 ≤ tolerance →
    ((⟨.cg, maxIterations, tolerance⟩ : KrylovSolver R).solveCheckedRecorded op preconditioner
      b x).Records
        ((⟨.cg, maxIterations, tolerance⟩ : KrylovSolver R).solveChecked op preconditioner b x)
        (Divisor.IsZeroOnlyIf
          (∃ known ∈ preconditioner, ∃ r, known.AnswersAcross action r))
  /-- With a steady preconditioner, no solve divides by zero exactly if there is no residual
  that is answered across it. -/
  never_iff : (∀ known ∈ preconditioner, known.Steady) →
    ((∀ (maxIterations : Nat) (tolerance : R) (b x : Array R), 0 ≤ tolerance →
      (⟨.cg, maxIterations, tolerance⟩ : KrylovSolver R).DividesByNoZero op preconditioner b x) ↔
        ∀ known ∈ preconditioner, ∀ r, ¬known.AnswersAcross action r)

variable [IsStrictOrderedRing R]

/-- A solve from zero for a right-hand side that is always answered across it divides by
the inner product with the answer. -/
theorem makes_zero {op : Operator σ R n} {preconditioner : Preconditioner σ R n}
    (root_zero : ∀ a : R, 0 ≤ a → (Roots.sqrt a = 0 ↔ a = 0)) (alone : op.comm = .serial)
    (linear : op.Realizes action) (steady : preconditioner.Steady) {r : Vector R n}
    (answers : preconditioner.AnswersAcross action r) :
    ((⟨.cg, 1, 0⟩ : KrylovSolver R).solveCheckedRecorded op (some preconditioner) r.toArray
      (fill 0 : Vector R n).toArray).Makes (.preconditioned, 0) := by
  have norm : op.comm.norm r ≠ 0 :=
    (Communicator.norm_eq_zero_iff alone root_zero r).not.mpr answers.1
  have exact := systemOf_exact (⟨.cg, 1, 0⟩ : KrylovSolver R) (some preconditioner) alone linear
    answers.1
  have solved : ((⟨.cg, 1, 0⟩ : KrylovSolver R).solveRecorded op (some preconditioner) r
      (fill 0)).Makes (.preconditioned, 0) := by
    unfold solveRecorded solveBy
    dsimp only
    split
    case isTrue none => exact absurd (beq_iff_eq.mp none) norm
    refine ConjugateGradients.makes_zero exact root_zero le_rfl norm Nat.one_ne_zero
      fun first residual => ?_
    have same : first = r := by
      rw [← entries_inj, residual, entries_zero, map_zero, sub_zero]
      rfl
    rw [same]
    refine ⟨?_, ⟨preconditioner, rfl, r, answers⟩, fun y => ?_⟩
    · have whole : (systemOf (⟨.cg, 1, 0⟩ : KrylovSolver R) op (some preconditioner) r
          (op.comm.norm r)).relativeNorm r = 1 := div_self norm
      rw [whole]
      exact not_le_of_gt one_pos
    · exact (steady.attains_across answers).mapError _
  unfold solveCheckedRecorded solveCheckedBy
  rw [checkPair_eq_ok_iff.mpr ⟨rfl, rfl⟩]
  exact (solved.mapError _).bind fun solution => keeps_pure _

/-- Conjugate gradients divide by zero exactly where a preconditioner answers across a
residual. In exact arithmetic on one process, for every linear operator, right-hand side,
start and limit, and every tolerance that is not negative: the energy of a direction is
never zero where it divides, and the inner product of a residual and its preconditioned
residual is zero where it divides only if some residual is answered by an orthogonal vector
of positive energy, as one always is that a steady preconditioner answers so. -/
theorem cg_divides_by_zero_only_across (op : Operator σ R n)
    (preconditioner : Option (Preconditioner σ R n)) (action : (Fin n → R) →ₗ[R] (Fin n → R))
    (root_zero : ∀ a : R, 0 ≤ a → (Roots.sqrt a = 0 ↔ a = 0)) (alone : op.comm = .serial)
    (linear : op.Realizes action) : CgDivisions op preconditioner action := by
  have only (maxIterations : Nat) (tolerance : R) (b x : Array R) (tolerant : 0 ≤ tolerance) :
      ((⟨.cg, maxIterations, tolerance⟩ : KrylovSolver R).solveCheckedRecorded op preconditioner
        b x).Records
          ((⟨.cg, maxIterations, tolerance⟩ : KrylovSolver R).solveChecked op preconditioner b x)
          (Divisor.IsZeroOnlyIf
            (∃ known ∈ preconditioner, ∃ r, known.AnswersAcross action r)) := by
    refine records_solveChecked _ op preconditioner b x fun rhs start nonzero => ?_
    have remains := (Communicator.norm_eq_zero_iff alone root_zero rhs).not.mp nonzero
    have exact := systemOf_exact (⟨.cg, maxIterations, tolerance⟩ : KrylovSolver R)
      preconditioner alone linear remains
    exact ConjugateGradients.records_solve exact root_zero tolerant nonzero start
  refine ⟨only, fun steady => ⟨fun safe known given r answers => ?_, fun never => ?_⟩⟩
  · subst given
    obtain ⟨state, -⟩ := answers.2
    have made := makes_zero root_zero alone linear (steady known rfl) answers
    exact (safe 1 0 _ _ le_rfl).divisors.expected_of_makes made state rfl
  · intro maxIterations tolerance b x tolerant
    refine ⟨(only maxIterations tolerance b x tolerant).mono fun place divisor guarded zero => ?_,
      stops_solveChecked _ op preconditioner b x⟩
    obtain ⟨known, given, r, answers⟩ := (guarded zero).2
    exact never known given r answers

/-- A preconditioner that reflects a vector, beside the identity. -/
theorem cg_divides_by_zero_only_across_reflected :
    CgDivisions (Operator.ofAction (LinearMap.id : (Fin 2 → Rat) →ₗ[Rat] (Fin 2 → Rat)) Unit)
      (some (.ofAction (diagonal ![1, -1]) Unit)) LinearMap.id :=
  cg_divides_by_zero_only_across _ _ _ Roots.sqrt_rat_eq_zero_iff rfl
    (Operator.realizes_ofAction _ Unit)

/-- A matrix that is not definite. -/
def indefinite : Csr Rat :=
  .ofRows 4 [[(0, 1), (1, 1)], [(0, 1), (1, 1)], [(2, -1)], [(3, -1)]]

/-- The operator of this matrix, in a run that keeps a relaxation. -/
def indefiniteOperator : Operator (Nat × Relaxation Rat 4) Rat 4 :=
  (indefinite.operator .serial none).besides

/-- The relaxation that is kept, as a preconditioner. -/
def indefiniteRelaxation : Preconditioner (Nat × Relaxation Rat 4) Rat 4 :=
  Relaxation.preconditioner (indefinite.operator .serial none)

/-- The run starts with the usual relaxation, computed for the matrix. -/
def indefiniteStart : Nat × Relaxation Rat 4 :=
  (0, ((Relaxation.ofParams .default).compute (indefinite.operator .serial none)).after)

/-- A sweep of Jacobi answers the vector of ones with a vector across it that has positive
energy. A solve for this vector ends with a status after its first iteration, and has
divided by zero. -/
theorem cg_divides_by_zero_indefinite :
    (((⟨.cg, 1, 1 / 100000000⟩ : KrylovSolver Rat).solveChecked indefiniteOperator
      (some indefiniteRelaxation) #[1, 1, 1, 1] #[0, 0, 0, 0]).run indefiniteStart).1.toOption =
        some (#[0, 0, 0, 0], ⟨1, 1, false⟩) ∧
    ¬(⟨.cg, 1, 1 / 100000000⟩ : KrylovSolver Rat).DividesByNoZero indefiniteOperator
      (some indefiniteRelaxation) #[1, 1, 1, 1] #[0, 0, 0, 0] := by
  refine ⟨by decide +kernel, fun safe => ?_⟩
  obtain ⟨made, run, nonzero⟩ := safe.divisors indefiniteStart []
  have recorded : (Divisor.preconditioned, 0) ∈
      (((⟨.cg, 1, 1 / 100000000⟩ : KrylovSolver Rat).solveCheckedRecorded indefiniteOperator
        (some indefiniteRelaxation) #[1, 1, 1, 1] #[0, 0, 0, 0]).run
          (indefiniteStart, [])).2.2 := by
    decide +kernel
  rw [run] at recorded
  exact nonzero (.preconditioned, 0) recorded rfl

end KrylovSolver

end HexSlab

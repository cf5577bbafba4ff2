import HexSlab.Proofs.ScaledVectors
import HexSlab.Spectrum.Lanczos
import HexSlab.Spectrum.Power

/-!
# Estimates of eigenvalues in two runs

The power method brings its iterates to unit length, so they are shorter in a run
whose norms are multiples, and the quotient that estimates the eigenvalue is that
of two shorter vectors. Conjugate gradients keep their vectors and carry inner
products that are multiples, as is the bound at which they stop; step lengths and
turns are quotients of inner products.
-/

namespace HexSlab

open Vec

variable {σ τ R : Type} [Field R] [LinearOrder R] [Roots R] {n : Nat} {states : σ → τ → Prop}
  {c : R} {op : Operator σ R n} {copy : Operator τ R n}

omit [LinearOrder R] [Roots R] in
/-- Images of scaled vectors are scaled, for an estimate. -/
theorem Operator.InStepWith.estimating {k : R} {v w : Vector R n}
    (matched : op.InStepWith states copy) (scaled : Scaled k v w) :
    ((op.apply v).mapError (.operator : _ → PreconditionerError R)).InStep states Eq (Scaled k)
      ((copy.apply w).mapError .operator) := by
  refine (matched k v w scaled).mapError ?_
  rintro error _ rfl
  rfl

/-- From iterates of which one is shorter both runs come to one estimate. -/
theorem powerIterations_inStep (reductions : op.comm.Multiplies copy.comm c n)
    (operators : op.InStepWith states copy) (inverse : Vector R n) (steps : Nat)
    {x x' : Vector R n} (shorter : Scaled c⁻¹ x x') (estimate : R) :
    (powerIterations op inverse steps x estimate).InStep states Eq Eq
      (powerIterations copy inverse steps x' estimate) := by
  induction steps generalizing x x' estimate with
  | zero => exact Attempt.inStep_pure rfl
  | succ steps ih =>
    unfold powerIterations
    refine (operators.estimating shorter).bind fun image image' applied => ?_
    have weighted := applied.hadamard_right inverse
    dsimp only
    rw [reductions.dot_scaled weighted shorter, reductions.dot_scaled shorter shorter,
      reductions.norm_scaled weighted]
    refine Attempt.inStep_ite Iff.rfl (fun _ => Attempt.inStep_fail rfl) fun _ => ?_
    exact ih (weighted.divBy _) _

/-- The power method gives one estimate or one error from one start vector. -/
theorem powerMethod_inStep (reductions : op.comm.Multiplies copy.comm c n)
    (operators : op.InStepWith states copy) (inverse start : Vector R n) (iterations : Nat) :
    (powerMethod op inverse start iterations).InStep states Eq Eq
      (powerMethod copy inverse start iterations) := by
  unfold powerMethod
  refine Attempt.inStep_ite (reductions.norm_beq_iff start) (fun _ => Attempt.inStep_fail rfl)
    fun _ => ?_
  have shorter := scaled_divBy start c (op.comm.norm start)
  rw [← reductions.norm_eq] at shorter
  exact powerIterations_inStep reductions operators inverse iterations shorter 0

/-- So it does with an inverse diagonal of any length. -/
theorem powerMethodChecked_inStep (reductions : op.comm.Multiplies copy.comm c n)
    (operators : op.InStepWith states copy) (inverse : Array R) (start : Vector R n)
    (iterations : Nat) :
    (powerMethodChecked op inverse start iterations).InStep states Eq Eq
      (powerMethodChecked copy inverse start iterations) := by
  unfold powerMethodChecked
  split
  · exact powerMethod_inStep reductions operators _ start iterations
  · refine Attempt.inStep_ite (reductions.norm_beq_iff start) (fun _ => Attempt.inStep_fail rfl)
      fun _ => ?_
    refine Attempt.inStep_ite Iff.rfl (fun _ => Attempt.inStep_pure rfl) fun _ => ?_
    have shorter := scaled_divBy start c (op.comm.norm start)
    rw [← reductions.norm_eq] at shorter
    exact (operators.estimating shorter).bind fun _ _ _ => Attempt.inStep_fail rfl

variable [IsStrictOrderedRing R]

/-- From one residual and one direction both runs take the same steps. -/
theorem lanczosSteps_inStep (roots : SquareRoots R)
    (reductions : op.comm.Multiplies copy.comm c n) (operators : op.InStepWith states copy)
    (inverse : Vector R n) (bound : R) (count : Nat) (r p : Vector R n) (rz : R) :
    (lanczosSteps op inverse bound count r p rz).InStep states Eq Eq
      (lanczosSteps copy inverse (c * bound) count r p (c * c * rz)) := by
  have positive := reductions.positive
  have square : 0 < c * c := mul_pos positive positive
  induction count generalizing r p rz with
  | zero => exact Attempt.inStep_pure rfl
  | succ count ih =>
    unfold lanczosSteps
    refine Attempt.inStep_ite (mul_pos_iff_of_pos_left square).symm (fun _ => ?_)
      fun _ => Attempt.inStep_pure rfl
    refine (operators.estimating (scaled_refl p)).bind fun q q' applied => ?_
    obtain rfl := scaled_one_iff.mp applied
    dsimp only
    rw [reductions.dot_eq, mul_div_mul_left _ _ square.ne']
    refine Attempt.inStep_ite (mul_pos_iff_of_pos_left square).symm (fun _ => ?_)
      fun _ => Attempt.inStep_pure rfl
    generalize axpy (-(rz / op.comm.dot p q)) q 1 r = r
    have size : Scalar.sqrt (Scalar.abs (copy.comm.dot r (hadamard inverse r))) =
        c * Scalar.sqrt (Scalar.abs (op.comm.dot r (hadamard inverse r))) :=
      reductions.sqrt_abs_dot_eq roots _ _
    -- both sides of the test for convergence are multiples by the factor itself
    rw [size, reductions.dot_eq, mul_div_mul_left _ _ square.ne']
    refine Attempt.inStep_ite (mul_le_mul_iff_right₀ positive).symm
      (fun _ => Attempt.inStep_pure rfl) fun _ => ?_
    refine Attempt.inStep_ite Iff.rfl (fun _ => ?_) fun _ => Attempt.inStep_pure rfl
    refine (ih r _ _).bind ?_
    rintro rest _ rfl
    exact Attempt.inStep_pure rfl

/-- Conjugate gradients give one pair of eigenvalues or one error from one start
vector. -/
theorem cgEstimate_inStep (roots : SquareRoots R)
    (reductions : op.comm.Multiplies copy.comm c n) (operators : op.InStepWith states copy)
    (extremes : Tridiagonal R → R × R) (inverse start : Vector R n) (iterations : Nat) :
    (cgEstimate extremes op inverse start iterations).InStep states Eq Eq
      (cgEstimate extremes copy inverse start iterations) := by
  have run : (lanczosRun op inverse start iterations).InStep states Eq Eq
      (lanczosRun copy inverse start iterations) := by
    have size : Scalar.sqrt (Scalar.abs (copy.comm.dot start (hadamard inverse start))) =
        c * Scalar.sqrt (Scalar.abs (op.comm.dot start (hadamard inverse start))) :=
      reductions.sqrt_abs_dot_eq roots _ _
    unfold lanczosRun
    dsimp only
    rw [size, reductions.dot_eq, mul_left_comm]
    exact lanczosSteps_inStep roots reductions operators inverse _ iterations start _ _
  unfold cgEstimate
  refine run.bind ?_
  rintro taken _ rfl
  exact Attempt.inStep_ite Iff.rfl (fun _ => Attempt.inStep_fail rfl)
    fun _ => Attempt.inStep_pure rfl

/-- So they do with an inverse diagonal of any length. -/
theorem cgEstimateChecked_inStep (roots : SquareRoots R)
    (reductions : op.comm.Multiplies copy.comm c n) (operators : op.InStepWith states copy)
    (extremes : Tridiagonal R → R × R) (inverse : Array R) (start : Vector R n)
    (iterations : Nat) :
    (cgEstimateChecked extremes op inverse start iterations).InStep states Eq Eq
      (cgEstimateChecked extremes copy inverse start iterations) := by
  unfold cgEstimateChecked
  split
  · exact cgEstimate_inStep roots reductions operators extremes _ start iterations
  · exact Attempt.inStep_fail rfl

end HexSlab

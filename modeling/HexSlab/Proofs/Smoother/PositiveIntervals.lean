import HexSlab.Proofs.Smoother.ChebyshevCalls
import HexSlab.Proofs.Spectrum.LanczosRuns

/-!
# Estimated intervals are positive

Conjugate gradients keep coefficients of positive definite matrices only. Given the
extreme eigenvalues of these, every estimate is an interval of positive numbers,
whatever the operator and the inverse diagonal are. So a condition number is at least
one, and no computation ends because an estimated eigenvalue is not positive.
-/

namespace HexSlab

variable {σ R : Type} [Field R] [LinearOrder R] [Roots R] [IsStrictOrderedRing R] {n : Nat}

/-- Every run builds a positive matrix, whatever the operator does. -/
theorem lanczosRun_buildsPositive (roots : SquareRoots R) (op : Operator σ R n)
    (inverse start : Vector R n) (iterations : Nat) :
    (lanczosRun op inverse start iterations).Yields LanczosRun.BuildsPositive :=
  (lanczosRun_sound op inverse start iterations).mono fun _ sound => sound.buildsPositive roots

/-- An estimate is an interval of positive numbers. -/
theorem cgEstimate_interval (roots : SquareRoots R) {extremes : Tridiagonal R → R × R}
    {op : Operator σ R n} {inverse start : Vector R n} {iterations : Nat}
    (exact : ExactFor extremes op inverse start iterations) :
    (cgEstimate extremes op inverse start iterations).Yields fun pair =>
      0 < pair.1 ∧ pair.1 ≤ pair.2 := by
  have builds := lanczosRun_buildsPositive roots op inverse start iterations
  exact exact.cgEstimate builds fun _ _ built found => ⟨found.pos built.positive, found.le⟩

omit [IsStrictOrderedRing R] in
/-- An estimate fails without a step or with an error of the operator. -/
theorem cgEstimate_failsOnly (extremes : Tridiagonal R → R × R) (op : Operator σ R n)
    (inverse start : Vector R n) (iterations : Nat) :
    (cgEstimate extremes op inverse start iterations).FailsOnly fun error =>
      error = .noProgress ∨ ∃ cause, error = .operator cause := by
  have run : (lanczosRun op inverse start iterations).FailsOnly fun error =>
      error = .noProgress ∨ ∃ cause, error = .operator cause :=
    fun state error after failed =>
      .inr (lanczosRun_failsOnly op inverse start iterations state error after failed)
  unfold cgEstimate
  refine run.bind fun taken => ?_
  split_ifs
  · exact Attempt.failsOnly_fail (.inl rfl)
  · exact Attempt.failsOnly_pure _

namespace Chebyshev

/-- An estimate of the condition number is at least one. -/
theorem estimateCondition_one_le (roots : SquareRoots R) (op : Operator σ R n)
    (smoother : Chebyshev R n) (kit : SpectralKit R) (iterations : Nat) (state : σ)
    (exact : ∀ inverse ∈ smoother.inverseDiagonal?,
      ExactFor kit.extremes op inverse (kit.start n op.comm.rank) iterations) :
    let outcome := (smoother.estimateCondition kit op iterations state).1
    outcome.error? = none → ∃ value, outcome.after.condition = some value ∧ 1 ≤ value := by
  obtain ⟨params, phase, sizes, condition, stats⟩ := smoother
  unfold estimateCondition
  rcases phase with _ | _ | ⟨inverse, bounds⟩
  · intro _ succeeded
    cases succeeded
  · intro _ succeeded
    cases succeeded
  · have interval := cgEstimate_interval roots (exact inverse rfl)
    dsimp only
    rcases estimated : cgEstimate kit.extremes op inverse (kit.start n op.comm.rank) iterations
      state with ⟨error | pair, after⟩
    · intro succeeded
      cases succeeded
    · obtain ⟨positive, le⟩ := interval state pair after estimated
      intro _
      exact ⟨_, rfl, (one_le_div positive).mpr le⟩

omit [IsStrictOrderedRing R] in
/-- Settings are not refused for an eigenvalue before there is an estimate. -/
theorem settingsError?_ne_unusable (params : ChebyshevParams R) (value : R) :
    settingsError? params ≠ some (.eigenvalueUnusable value) := by
  unfold settingsError?
  split_ifs <;> exact nofun

omit [IsStrictOrderedRing R] in
/-- A largest eigenvalue that is positive can be used: exact numbers are finite. -/
theorem settle_ne_unusable (smoother : Chebyshev R n) (inverse : Vector R n)
    (positive : 0 < smoother.params.lambdaMax) (value : R) :
    (smoother.settle inverse).error? ≠ some (.eigenvalueUnusable value) := by
  have usable : 0 < smoother.params.lambdaMax ∧
      Scalar.isFinite smoother.params.lambdaMax = true := ⟨positive, rfl⟩
  unfold settle checkedBounds
  rw [if_pos usable]
  dsimp only
  split_ifs <;> exact nofun

/-- An estimate by conjugate gradients leaves a positive largest eigenvalue. -/
theorem estimateSpectrum_positive (roots : SquareRoots R) {kit : SpectralKit R}
    {op : Operator σ R n} {inverse : Vector R n} {params : ChebyshevParams R}
    (estimation : params.estimation = .cg)
    (exact : ExactFor kit.extremes op inverse (kit.start n op.comm.rank) params.iterations) :
    (estimateSpectrum kit op inverse params).Yields fun found => 0 < found.lambdaMax := by
  unfold estimateSpectrum
  rw [estimation]
  refine (cgEstimate_interval roots exact).bind fun pair facts => ?_
  exact Attempt.yields_pure (facts.1.trans_le facts.2)

omit [IsStrictOrderedRing R] in
/-- An estimate by conjugate gradients that fails does not blame an eigenvalue. -/
theorem estimateSpectrum_ne_unusable (kit : SpectralKit R) (op : Operator σ R n)
    (inverse : Vector R n) {params : ChebyshevParams R} (estimation : params.estimation = .cg)
    (value : R) :
    (estimateSpectrum kit op inverse params).FailsOnly (· ≠ .eigenvalueUnusable value) := by
  unfold estimateSpectrum
  rw [estimation]
  refine Attempt.FailsOnly.bind ?_ fun pair => Attempt.failsOnly_pure _
  intro state error after failed
  rcases cgEstimate_failsOnly kit.extremes op inverse (kit.start n op.comm.rank)
    params.iterations state error after failed with rfl | ⟨cause, rfl⟩ <;> exact nofun

/-- A computation that estimates the interval by conjugate gradients does not find its
largest eigenvalue unusable. -/
theorem compute_accepts (roots : SquareRoots R) (op : Operator σ R n) (smoother : Chebyshev R n)
    (kit : SpectralKit R) (state : σ) (estimation : smoother.params.estimation = .cg)
    (exact : ExactFor kit.extremes op (invertDiagonal op smoother.params.minDiagonal)
      (kit.start n op.comm.rank) smoother.params.iterations) (value : R) :
    (smoother.compute kit op state).1.error? ≠ some (.eigenvalueUnusable value) := by
  obtain ⟨params_eq, -⟩ := prepared_if_needed op smoother
  rw [← params_eq] at estimation exact
  unfold compute
  generalize (if smoother.isPrepared then smoother else smoother.prepare op) = prepared at *
  dsimp only
  rcases refused : settingsError? prepared.params with _ | error
  · dsimp only
    rcases estimated : estimateSpectrum kit op (invertDiagonal op prepared.params.minDiagonal)
      prepared.params state with ⟨error | found, after⟩
    · intro rejected
      have cause := estimateSpectrum_ne_unusable kit op _ estimation value _ _ _ estimated
      exact cause (Option.some.inj rejected)
    · have positive := estimateSpectrum_positive roots estimation exact _ _ _ estimated
      exact settle_ne_unusable { prepared with params := found } _ positive value
  · intro rejected
    exact settingsError?_ne_unusable prepared.params value (refused.trans rejected)

end Chebyshev

/-- What estimates by conjugate gradients guarantee for an operator of which nothing
is known, given exact eigenvalues of the matrices that they build. -/
structure EstimatesPositive (op : Operator σ R n) : Prop where
  /-- Coefficients are read where there are some, and the matrix that they make is
  symmetric and positive definite. -/
  builds : ∀ (inverse start : Vector R n) (iterations : Nat),
    (lanczosRun op inverse start iterations).Yields LanczosRun.BuildsPositive
  /-- An estimate is an interval of positive numbers. -/
  interval : ∀ (extremes : Tridiagonal R → R × R) (inverse start : Vector R n)
    (iterations : Nat), ExactFor extremes op inverse start iterations →
      (cgEstimate extremes op inverse start iterations).Yields fun pair =>
        0 < pair.1 ∧ pair.1 ≤ pair.2
  /-- An estimate of the condition number is at least one. -/
  condition : ∀ (smoother : Chebyshev R n) (kit : SpectralKit R) (iterations : Nat) (state : σ),
    (∀ inverse ∈ smoother.inverseDiagonal?,
      ExactFor kit.extremes op inverse (kit.start n op.comm.rank) iterations) →
    (smoother.estimateCondition kit op iterations state).1.error? = none →
    ∃ value, (smoother.estimateCondition kit op iterations state).1.after.condition = some value ∧
      1 ≤ value
  /-- No computation finds an estimated eigenvalue unusable. -/
  accepted : ∀ (smoother : Chebyshev R n) (kit : SpectralKit R) (state : σ),
    smoother.params.estimation = .cg →
    ExactFor kit.extremes op (Chebyshev.invertDiagonal op smoother.params.minDiagonal)
      (kit.start n op.comm.rank) smoother.params.iterations →
    ∀ value, (smoother.compute kit op state).1.error? ≠ some (.eigenvalueUnusable value)

/-- Estimates by conjugate gradients are positive intervals for every operator, of
whatever symmetry and sign, with inverse diagonals of any sign. -/
theorem estimates_positive (roots : SquareRoots R) (op : Operator σ R n) :
    EstimatesPositive op where
  builds := lanczosRun_buildsPositive roots op
  interval := fun _ _ _ _ exact => cgEstimate_interval roots exact
  condition := fun smoother kit iterations state exact =>
    Chebyshev.estimateCondition_one_le roots op smoother kit iterations state exact
  accepted := Chebyshev.compute_accepts roots op

/-- A map that is not definite: the first step goes along a vector of positive energy,
and gives an estimate. -/
theorem estimates_positive_indefinite :
    let op := Operator.ofAction (Vec.diagonal ![(1 : ℝ), -1]) Unit
    (cgEstimate Tridiagonal.exactExtremes op #v[1, 1] #v[2, 1] 2).Attains fun pair =>
      0 < pair.1 ∧ pair.1 ≤ pair.2 := by
  intro op
  have interval := (estimates_positive squareRoots_real op).interval _ _ _ _
    (exactFor_exactExtremes op #v[1, 1] #v[2, 1] 2)
  have linear := Operator.realizes_ofAction (Vec.diagonal ![(1 : ℝ), -1]) Unit
  have scaled : Vec.hadamard #v[1, 1] #v[(2 : ℝ), 1] = #v[2, 1] := by
    rw [← Vec.entries_inj, Vec.entries_hadamard]
    funext i
    fin_cases i <;> exact one_mul _
  have length : 0 < op.comm.dot #v[2, 1] (Vec.hadamard #v[1, 1] #v[2, 1]) := by
    have value : op.comm.dot #v[2, 1] #v[2, 1] =
        Vec.entries #v[(2 : ℝ), 1] ⬝ᵥ Vec.entries #v[2, 1] := Vec.dot_serial _ _
    rw [scaled, value]
    norm_num [dotProduct, Fin.sum_univ_two, Vec.entries]
  have energy : (op.apply (Vec.hadamard #v[1, 1] #v[2, 1])).Yields fun image =>
      0 < op.comm.dot (Vec.hadamard #v[1, 1] #v[2, 1]) image := by
    refine (linear _).yields.mono fun image known => ?_
    have value : op.comm.dot #v[2, 1] image =
        Vec.entries #v[(2 : ℝ), 1] ⬝ᵥ Vec.entries image := Vec.dot_serial _ _
    rw [scaled, value, known, scaled]
    norm_num [dotProduct, Fin.sum_univ_two, Vec.entries, Vec.diagonal]
  have ends := cgEstimate_attains Tridiagonal.exactExtremes
    (fun v => (linear v).mono fun _ _ => trivial) length energy 1
  exact (ends.and interval).mono fun _ facts => facts.2

end HexSlab

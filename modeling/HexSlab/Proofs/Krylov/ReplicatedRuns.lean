import HexSlab.Proofs.Krylov.ScaledCycles
import HexSlab.Proofs.Smoother.ScaledSmoothers
import HexSlab.Proofs.Spectrum.ScaledEstimates

/-!
# Runs that hold the same data on every process

If every process holds the same data, sums over all processes are multiples of the
sum on one. Such a run gives the answers of a run with one process: solves without
a preconditioner or with a smoother of either kind, estimates of eigenvalues, and
so the smoothers that are computed from these. The operator may fail, as long as
it is the state of the run that decides when.
-/

namespace HexSlab

open Vec

variable {σ τ R : Type} {n : Nat}

/-- Two smoothers with the same settings and the same phase, with the inverted
diagonal and the bounds if these were computed. -/
structure Chebyshev.SameData (smoother found : Chebyshev R n) : Prop where
  /-- The settings are the same. -/
  params_eq : smoother.params = found.params
  /-- The phase is the same. -/
  phase_eq : smoother.phase = found.phase

/-- Two relaxations with the same settings and the same phase, with the inverted
diagonal if it was computed. -/
structure Relaxation.SameData (relaxation found : Relaxation R n) : Prop where
  /-- The settings are the same. -/
  params_eq : relaxation.params = found.params
  /-- The phase is the same. -/
  phase_eq : relaxation.phase = found.phase

variable [Field R] [LinearOrder R] [Roots R]

/-- Two operators give the same answers in runs from states that agree. -/
structure Operator.SameAnswers (states : σ → τ → Prop) (op : Operator σ R n)
    (copy : Operator τ R n) : Prop where
  /-- Solves without a preconditioner. -/
  plain : ∀ (solver : KrylovSolver R) (b x : Array R) (state : σ) (other : τ),
    states state other →
      ((solver.solveChecked op none b x).run state).1 =
        ((solver.solveChecked copy none b x).run other).1
  /-- Solves with Chebyshev smoothers as preconditioners. -/
  polynomial : ∀ (solver : KrylovSolver R) (b x : Array R) (state : σ) (other : τ)
    (smoother found : Chebyshev R n), states state other → smoother.SameData found →
      ((solver.solveChecked op.besides (some (Chebyshev.preconditioner op)) b x).run
          (state, smoother)).1 =
        ((solver.solveChecked copy.besides (some (Chebyshev.preconditioner copy)) b x).run
          (other, found)).1
  /-- Solves with relaxations as preconditioners. -/
  sweeps : ∀ (solver : KrylovSolver R) (b x : Array R) (state : σ) (other : τ)
    (relaxation found : Relaxation R n), states state other → relaxation.SameData found →
      ((solver.solveChecked op.besides (some (Relaxation.preconditioner op)) b x).run
          (state, relaxation)).1 =
        ((solver.solveChecked copy.besides (some (Relaxation.preconditioner copy)) b x).run
          (other, found)).1
  /-- Estimates by the power method. -/
  power : ∀ (kit : SpectralKit R) (inverse : Array R) (iterations : Nat) (state : σ) (other : τ),
    states state other →
      ((powerMethodChecked op inverse (kit.start n op.comm.rank) iterations).run state).1 =
        ((powerMethodChecked copy inverse (kit.start n copy.comm.rank) iterations).run other).1
  /-- Estimates by conjugate gradients. -/
  cg : ∀ (kit : SpectralKit R) (inverse : Array R) (iterations : Nat) (state : σ) (other : τ),
    states state other →
      ((cgEstimateChecked kit.extremes op inverse (kit.start n op.comm.rank) iterations).run
          state).1 =
        ((cgEstimateChecked kit.extremes copy inverse (kit.start n copy.comm.rank) iterations).run
          other).1
  /-- Computations of Chebyshev smoothers with the same data: the error is the same
  if there is one, and the data is the same afterwards. -/
  computed : ∀ (kit : SpectralKit R) (state : σ) (other : τ) (smoother found : Chebyshev R n),
    states state other → smoother.SameData found →
      (smoother.compute kit op state).1.error? = (found.compute kit copy other).1.error? ∧
        (smoother.compute kit op state).1.after.SameData (found.compute kit copy other).1.after

namespace Chebyshev

variable {states : σ → τ → Prop} {op : Operator σ R n} {copy : Operator τ R n}
  {smoother found : Chebyshev R n}

omit [Field R] [LinearOrder R] [Roots R] in
/-- Such smoothers start alike. -/
theorem SameData.startsApart (same : smoother.SameData found) :
    smoother.StartsApart smoother.params.zeroStart smoother.params.zeroStart found :=
  ⟨same.phase_eq, rfl, same.params_eq.symm⟩

omit [Field R] [LinearOrder R] [Roots R] in
/-- Preparing what was not prepared keeps the data the same. -/
theorem SameData.prepared (same : smoother.SameData found) (op : Operator σ R n)
    (copy : Operator τ R n) :
    SameData (if smoother.isPrepared then smoother else smoother.prepare op)
      (if found.isPrepared then found else found.prepare copy) := by
  have prepared : found.isPrepared = smoother.isPrepared := by
    rw [isPrepared, isPrepared, same.phase_eq]
  rw [prepared]
  cases smoother.isPrepared with
  | true => exact same
  | false => exact ⟨same.params_eq, rfl⟩

/-- The last step of a computation reads nothing else. -/
theorem SameData.settle (same : smoother.SameData found) (inverse : Vector R n) :
    (smoother.settle inverse).error? = (found.settle inverse).error? ∧
      (smoother.settle inverse).after.SameData (found.settle inverse).after := by
  unfold Chebyshev.settle
  rw [← same.params_eq]
  rcases checkedBounds smoother.params with error | bounds
  · exact ⟨rfl, same⟩
  · exact ⟨rfl, rfl, rfl⟩

variable [IsStrictOrderedRing R] {c : R}

/-- The spectrum is estimated alike. -/
theorem estimateSpectrum_inStep (roots : SquareRoots R) (operators : op.InStepWith states copy)
    (reductions : op.comm.Multiplies copy.comm c n) (rank : op.comm.rank = copy.comm.rank)
    (kit : SpectralKit R) (inverse : Vector R n) (params : ChebyshevParams R) :
    (estimateSpectrum kit op inverse params).InStep states Eq Eq
      (estimateSpectrum kit copy inverse params) := by
  unfold estimateSpectrum
  dsimp only
  rw [← rank]
  cases params.estimation with
  | given => exact Attempt.inStep_pure rfl
  | power =>
    refine (powerMethod_inStep reductions operators inverse _ _).bind ?_
    rintro lambdaMax _ rfl
    exact Attempt.inStep_pure rfl
  | cg =>
    refine (cgEstimate_inStep roots reductions operators kit.extremes inverse _ _).bind ?_
    rintro spectrum _ rfl
    exact Attempt.inStep_pure rfl

/-- Smoothers with the same data are computed to such smoothers. -/
theorem SameData.compute (same : smoother.SameData found) (roots : SquareRoots R)
    (operators : op.InStepWith states copy) (reductions : op.comm.Multiplies copy.comm c n)
    (rank : op.comm.rank = copy.comm.rank) (diagonal : op.diagonal = copy.diagonal)
    (kit : SpectralKit R) {state : σ} {other : τ} (related : states state other) :
    (smoother.compute kit op state).1.error? = (found.compute kit copy other).1.error? ∧
      (smoother.compute kit op state).1.after.SameData (found.compute kit copy other).1.after := by
  have inverted (least : R) : invertDiagonal copy least = invertDiagonal op least := by
    rw [invertDiagonal, invertDiagonal, diagonal]
  have prepared := same.prepared op copy
  unfold Chebyshev.compute
  generalize (if smoother.isPrepared then smoother else smoother.prepare op) = one at prepared ⊢
  generalize (if found.isPrepared then found else found.prepare copy) = two at prepared ⊢
  dsimp only
  rw [← prepared.params_eq, inverted]
  rcases settingsError? one.params with _ | error
  · have estimated := estimateSpectrum_inStep roots operators reductions rank kit
      (invertDiagonal op one.params.minDiagonal) one.params state other related
    unfold Attempt.run at estimated
    dsimp only
    generalize estimateSpectrum kit op _ _ state = first at estimated ⊢
    generalize estimateSpectrum kit copy _ _ other = second at estimated ⊢
    obtain ⟨outcome, after⟩ := first
    obtain ⟨outcome', after'⟩ := second
    obtain ⟨outcomes, -⟩ := estimated
    obtain rfl : outcome = outcome' := outcomes.eq
    cases outcome with
    | error error => exact ⟨rfl, prepared⟩
    | ok params =>
      have same : SameData { one with params := params } { two with params := params } :=
        ⟨rfl, prepared.phase_eq⟩
      exact same.settle _
  · exact ⟨rfl, prepared⟩

end Chebyshev

variable [IsStrictOrderedRing R] {states : σ → τ → Prop} {c : R} {op : Operator σ R n}
  {copy : Operator τ R n}

/-- Operators in step give the same answers in runs whose reductions differ by a
factor. -/
theorem Operator.InStepWith.sameAnswers (operators : op.InStepWith states copy)
    (roots : SquareRoots R) (reductions : op.comm.Multiplies copy.comm c n)
    (rank : op.comm.rank = copy.comm.rank) (diagonal : op.diagonal = copy.diagonal)
    (rows : op.row = copy.row) : op.SameAnswers states copy where
  plain := by
    intro solver b x state other related
    have solves := KrylovSolver.solveChecked_inStep operators reductions .none solver b x
    exact solves.run_eq related
  polynomial := by
    intro solver b x state other smoother found related same
    have preconditioners := Chebyshev.preconditioner_inStep operators
      fun inverse bounds _ _ _ rhs => Chebyshev.firstStep_inStep operators inverse bounds
        smoother.params.zeroStart rhs (scaled_zero _)
    have solves := KrylovSolver.solveChecked_inStep (operators.besides _) reductions
      (.some preconditioners) solver b x
    exact solves.run_eq ⟨related, same.startsApart⟩
  sweeps := by
    intro solver b x state other relaxation found related same
    have preconditioners := Relaxation.preconditioner_inStep operators rows
      relaxation.params.zeroStart relaxation.params.zeroStart
    have solves := KrylovSolver.solveChecked_inStep (operators.besides _) reductions
      (.some preconditioners) solver b x
    exact solves.run_eq ⟨related, same.phase_eq, rfl, same.params_eq.symm⟩
  power := by
    intro kit inverse iterations state other related
    rw [← rank]
    exact (powerMethodChecked_inStep reductions operators inverse _ iterations).run_eq related
  cg := by
    intro kit inverse iterations state other related
    rw [← rank]
    exact (cgEstimateChecked_inStep roots reductions operators kit.extremes inverse _
      iterations).run_eq related
  computed := fun kit _ _ _ _ related same =>
    same.compute roots operators reductions rank diagonal kit related

/-- Replicated runs compute the serial answers. A run on rank zero whose sums over
all processes are a multiple of the value on one process answers as a run with one
process does: with the same status or the same error, and with the same vector or
the same estimates. -/
theorem replicated_runs_compute_serial_answers {σ R : Type} [Field R] [LinearOrder R]
    [IsStrictOrderedRing R] [Roots R] (roots : SquareRoots R) {n : Nat} {s : R} (least : 1 ≤ s)
    {comm : Communicator R} (rank : comm.rank = 0) (sums : ∀ value, comm.sumAll value = s * value)
    {op : Operator σ R n} (alone : op.comm = .serial) {states : σ → σ → Prop}
    {action : (Fin n → R) →ₗ[R] (Fin n → R)} (linear : op.LinearUpTo states action) :
    op.SameAnswers states { op with comm := comm } := by
  have positive : 0 < s := zero_lt_one.trans_le least
  have reductions : op.comm.Multiplies comm (Roots.sqrt s) n := by
    rw [alone]
    exact Communicator.multiplies_serial roots positive sums
  have ranks : op.comm.rank = comm.rank := by
    rw [alone, rank]
    rfl
  exact (linear.inStepWith comm).sameAnswers roots reductions ranks rfl rfl

/-- Four processes that hold the same two entries, over real numbers. -/
theorem replicated_runs_compute_serial_answers_four :
    (Operator.ofAction (diagonal (![2, 4] : Fin 2 → ℝ)) Nat).SameAnswers (fun _ _ => True)
      { Operator.ofAction (diagonal (![2, 4] : Fin 2 → ℝ)) Nat with
        comm := Communicator.replicated 0 4 } := by
  have four : (1 : ℝ) ≤ 4 := by norm_num
  have sums : ∀ value : ℝ, (Communicator.replicated 0 4).sumAll value = 4 * value := fun value =>
    (mul_comm value (Scalar.ofNat 4)).trans (congrArg (· * value) Nat.cast_ofNat)
  have linear := (Operator.realizes_ofAction (diagonal (![2, 4] : Fin 2 → ℝ)) Nat).linearUpTo
  exact replicated_runs_compute_serial_answers squareRoots_real four rfl sums rfl linear

end HexSlab

import HexSlab.Proofs.RepeatedAttempts
import HexSlab.Proofs.Smoother.ComputedSettings

/-!
# Computing a smoother again changes nothing

An operator that repeats its answers has its eigenvalues estimated alike each time, and
an estimate replaces only settings that it does not read. So a computation that succeeds
leaves settings that another one leaves as they are, with the same inverted diagonal and
the same bounds, and the smoother answers as before. All of this holds in any arithmetic.
-/

namespace HexSlab

open Attempt

variable {σ R : Type} [Scalar R] {n : Nat} {states : σ → σ → Prop} {op : Operator σ R n}

namespace Chebyshev

/-- The settings with eigenvalues that were found, the smallest and the largest. -/
def withEigenvalues (params : ChebyshevParams R) (found : Option R × Option R) :
    ChebyshevParams R :=
  { params with
    lambdaMin := found.1.getD params.lambdaMin
    lambdaMax := found.2.getD params.lambdaMax }

/-- The eigenvalues that an estimation finds, as far as it looks for them. -/
def findEigenvalues (kit : SpectralKit R) (op : Operator σ R n) (inverse : Vector R n)
    (params : ChebyshevParams R) : Attempt σ (PreconditionerError R) (Option R × Option R) :=
  let start := kit.start n op.comm.rank
  match params.estimation with
  | .given => pure (none, none)
  | .power => do
    let largest ← powerMethod op inverse start params.iterations
    pure (none, some largest)
  | .cg => do
    let spectrum ← cgEstimate kit.extremes op inverse start params.iterations
    pure (some spectrum.1, some spectrum.2)

/-- An estimation replaces the eigenvalues that it finds, and no other settings. -/
theorem estimateSpectrum_eq (kit : SpectralKit R) (op : Operator σ R n) (inverse : Vector R n)
    (params : ChebyshevParams R) :
    estimateSpectrum kit op inverse params =
      findEigenvalues kit op inverse params >>= fun found =>
        pure (withEigenvalues params found) := by
  unfold estimateSpectrum findEigenvalues
  obtain ⟨_, _, _, _, _, _, estimation, _⟩ := params
  cases estimation with
  | given => rfl
  | power | cg =>
    simp only [bind_assoc, pure_bind]
    rfl

/-- The outcome of an estimation, from what it finds. -/
theorem estimateSpectrum_outcome (kit : SpectralKit R) (op : Operator σ R n)
    (inverse : Vector R n) (params : ChebyshevParams R) (state : σ) :
    ((estimateSpectrum kit op inverse params).run state).1 =
      ((findEigenvalues kit op inverse params).run state).1.map (withEigenvalues params) := by
  rw [estimateSpectrum_eq, run_bind]
  rcases (findEigenvalues kit op inverse params).run state with ⟨error | found, after⟩ <;> rfl

/-- What an estimation finds is found again. -/
theorem findEigenvalues_repeats (repeats : op.Repeats states) (kit : SpectralKit R)
    (inverse : Vector R n) (params : ChebyshevParams R) :
    (findEigenvalues kit op inverse params).Repeats states := by
  unfold findEigenvalues
  cases params.estimation with
  | given => exact repeats_pure _
  | power => exact (powerMethod_repeats repeats _ _ _).bind fun largest => repeats_pure _
  | cg => exact (cgEstimate_repeats repeats _ _ _ _).bind fun spectrum => repeats_pure _

omit [Scalar R] in
/-- Replacing eigenvalues by those that they were replaced with changes nothing. -/
theorem withEigenvalues_again (params : ChebyshevParams R) (found : Option R × Option R) :
    withEigenvalues (withEigenvalues params found) found = withEigenvalues params found := by
  obtain ⟨smallest, largest⟩ := found
  cases smallest <;> cases largest <;> rfl

/-- Settings that an estimation left are left by another one as they are. -/
theorem estimateSpectrum_again (repeats : op.Repeats states) (kit : SpectralKit R)
    (inverse : Vector R n) {params settled : ChebyshevParams R} {state later : σ}
    (left : ((estimateSpectrum kit op inverse params).run state).1 = .ok settled)
    (related : states state later) :
    ((estimateSpectrum kit op inverse settled).run later).1 = .ok settled := by
  have repeated := (findEigenvalues_repeats repeats kit inverse params).run_eq related
  rw [estimateSpectrum_outcome] at left ⊢
  cases found : ((findEigenvalues kit op inverse params).run state).1 with
  | error error =>
    rw [found] at left
    cases left
  | ok values =>
    rw [found] at left repeated
    obtain rfl : withEigenvalues params values = settled := Except.ok.inj left
    -- the eigenvalues are not read when they are looked for
    show ((findEigenvalues kit op inverse params).run later).1.map _ = _
    rw [← repeated]
    exact congrArg Except.ok (withEigenvalues_again params values)

/-- An estimation keeps settings that can be computed with, and the bound of the
diagonal. -/
theorem estimateSpectrum_keeps (kit : SpectralKit R) (op : Operator σ R n) (inverse : Vector R n)
    {params settled : ChebyshevParams R} {state : σ}
    (left : ((estimateSpectrum kit op inverse params).run state).1 = .ok settled) :
    settingsError? settled = settingsError? params ∧ settled.minDiagonal = params.minDiagonal := by
  obtain ⟨degree, ratio, least⟩ :=
    estimateSpectrum_yields kit op inverse params state settled _ (Prod.ext left rfl)
  refine ⟨?_, least⟩
  rw [settingsError?, settingsError?, degree, ratio]

/-- What a computation that succeeds goes through: settings that can be computed with, the
settings that their estimation leaves, and bounds for these. -/
structure Computes (kit : SpectralKit R) (op : Operator σ R n) (params : ChebyshevParams R)
    (state : σ) (settled : ChebyshevParams R) (bounds : ChebyshevBounds R) : Prop where
  /-- There is nothing wrong with the settings. -/
  settings : settingsError? params = none
  /-- The estimation succeeds. -/
  estimate : ((estimateSpectrum kit op (invertDiagonal op params.minDiagonal) params).run
    state).1 = .ok settled
  /-- There is an interval to damp. -/
  checked : checkedBounds settled = .ok bounds

/-- What a computation holds afterwards that goes through these steps. -/
structure Holds (op : Operator σ R n) (settled : ChebyshevParams R) (bounds : ChebyshevBounds R)
    (outcome : Outcome (PreconditionerError R) (Chebyshev R n)) : Prop where
  /-- The call has succeeded. -/
  success : outcome.error? = none
  /-- The settings are those of the estimation. -/
  params : outcome.after.params = settled
  /-- The inverted diagonal and the bounds belong to the settings. -/
  phase : outcome.after.phase = .computed (invertDiagonal op settled.minDiagonal) bounds

/-- A computation that goes through its steps succeeds and holds what they find. -/
theorem Computes.holds {kit : SpectralKit R} {smoother : Chebyshev R n} {state : σ}
    {settled : ChebyshevParams R} {bounds : ChebyshevBounds R}
    (steps : Computes kit op smoother.params state settled bounds) :
    Holds op settled bounds (smoother.compute kit op state).1 := by
  obtain ⟨-, least⟩ := estimateSpectrum_keeps kit op _ steps.estimate
  obtain ⟨same, -⟩ := prepared_if_needed op smoother
  unfold compute
  generalize (if smoother.isPrepared then smoother else smoother.prepare op) = start at same ⊢
  dsimp only
  rw [same, steps.settings]
  dsimp only
  have estimate := steps.estimate
  unfold Attempt.run at estimate
  generalize estimateSpectrum kit op (invertDiagonal op smoother.params.minDiagonal)
    smoother.params state = reached at estimate ⊢
  obtain ⟨outcome, after⟩ := reached
  obtain rfl : outcome = .ok settled := estimate
  dsimp only [settle]
  rw [steps.checked, ← least]
  exact ⟨rfl, rfl, rfl⟩

/-- A computation that succeeds goes through its steps. -/
theorem exists_computes {kit : SpectralKit R} {smoother : Chebyshev R n} {state : σ}
    (success : (smoother.compute kit op state).1.error? = none) :
    ∃ settled bounds, Computes kit op smoother.params state settled bounds := by
  obtain ⟨same, -⟩ := prepared_if_needed op smoother
  unfold compute at success
  generalize (if smoother.isPrepared then smoother else smoother.prepare op) = start at same success
  dsimp only at success
  rw [same] at success
  cases settings : settingsError? smoother.params with
  | some error =>
    rw [settings] at success
    cases success
  | none =>
    rw [settings] at success
    dsimp only at success
    rcases left : estimateSpectrum kit op (invertDiagonal op smoother.params.minDiagonal)
      smoother.params state with ⟨error | settled, after⟩
    · rw [left] at success
      cases success
    · rw [left] at success
      dsimp only [settle] at success
      cases checked : checkedBounds settled with
      | error error =>
        rw [checked] at success
        cases success
      | ok bounds => exact ⟨settled, bounds, settings, congrArg Prod.fst left, checked⟩

/-- The steps of a computation lead a computation of what they left to the same. -/
theorem Computes.again (repeats : op.Repeats states) {kit : SpectralKit R}
    {params settled : ChebyshevParams R} {bounds : ChebyshevBounds R} {state later : σ}
    (steps : Computes kit op params state settled bounds) (related : states state later) :
    Computes kit op settled later settled bounds := by
  obtain ⟨settings, least⟩ := estimateSpectrum_keeps kit op _ steps.estimate
  refine ⟨settings.trans steps.settings, ?_, steps.checked⟩
  rw [least]
  exact estimateSpectrum_again repeats kit _ steps.estimate related

/-- The recurrence with an operator that repeats its answers is repeated. -/
theorem recurrence_repeats (repeats : op.Repeats states) (inverse : Vector R n)
    (bounds : ChebyshevBounds R) (x : Vector R n) (degrees : Nat) (y w : Vector R n) (rho : R) :
    (recurrence op inverse bounds x degrees y w rho).Repeats states := by
  induction degrees generalizing y w rho with
  | zero => exact repeats_pure y
  | succ degrees ih =>
    unfold recurrence
    exact (repeats.leaving y y).bind fun image => ih _ _ _

/-- So are all steps of a smoother. -/
theorem smooth_repeats (repeats : op.Repeats states) (inverse : Vector R n)
    (bounds : ChebyshevBounds R) (degree : Nat) (zeroStart : Bool) (x y : Vector R n) :
    (smooth op inverse bounds degree zeroStart x y).Repeats states := by
  unfold smooth firstStep
  refine Attempt.Repeats.bind (repeats_ite (repeats_pure _) ?_) fun first =>
    recurrence_repeats repeats inverse bounds x _ _ _ _
  exact (repeats.leaving y y).bind fun image => repeats_pure _

/-- Smoothers with the same settings and the same phase answer alike. -/
theorem applyInverseChecked_inStep (repeats : op.Repeats states) {smoother found : Chebyshev R n}
    (params : found.params = smoother.params) (phase : found.phase = smoother.phase)
    (x y : Array R) :
    (smoother.applyInverseChecked op x y).InStep states Eq (fun result other => result.1 = other.1)
      (found.applyInverseChecked op x y) := by
  have ready : found.isComputed = smoother.isComputed := by rw [isComputed, isComputed, phase]
  unfold applyInverseChecked
  rw [ready]
  refine inStep_ite Iff.rfl (fun _ => inStep_checkPair (fun v w => ?_) x y) fun _ =>
    inStep_fail rfl
  unfold applyInverse
  rw [phase, params]
  cases smoother.phase with
  | fresh => exact inStep_fail rfl
  | prepared => exact inStep_fail rfl
  | computed inverse bounds =>
    refine inStep_ite Iff.rfl (fun _ => inStep_pure rfl) fun _ => ?_
    refine Attempt.InStep.bind (smooth_repeats repeats inverse bounds _ _ v w) ?_
    intro result other same
    exact inStep_pure same

/-- A smoother after another computation, as it is seen from outside. -/
structure Unchanged (op : Operator σ R n) (smoother found : Chebyshev R n) : Prop where
  /-- The settings are the same. -/
  params : found.params = smoother.params
  /-- The inverted diagonal is the same. -/
  inverse : found.inverseDiagonal? = smoother.inverseDiagonal?
  /-- The bounds are the same. -/
  bounds : found.bounds? = smoother.bounds?
  /-- It answers alike for all vectors, whenever it is asked. -/
  answers : ∀ (x y : Array R) (state later : σ),
    ((smoother.applyInverseChecked op x y).run state).1.map Prod.fst =
      ((found.applyInverseChecked op x y).run later).1.map Prod.fst

/-- After a computation that succeeds another one succeeds and changes nothing. -/
theorem compute_again (repeats : op.Repeats fun _ _ => True) (kit : SpectralKit R)
    {smoother : Chebyshev R n} {state : σ}
    (success : (smoother.compute kit op state).1.error? = none) (later : σ) :
    let first := (smoother.compute kit op state).1.after
    (first.compute kit op later).1.error? = none ∧
      first.Unchanged op (first.compute kit op later).1.after := by
  obtain ⟨settled, bounds, steps⟩ := exists_computes success
  have first := steps.holds
  have again : Computes kit op (smoother.compute kit op state).1.after.params later settled
      bounds := by
    rw [first.params]
    exact steps.again repeats trivial
  have second := again.holds
  have params := second.params.trans first.params.symm
  have phase := second.phase.trans first.phase.symm
  refine ⟨second.success, params, ?_, ?_, ?_⟩
  · rw [inverseDiagonal?, inverseDiagonal?, phase]
  · rw [bounds?, bounds?, phase]
  · intro x y one other
    exact (applyInverseChecked_inStep repeats params phase x y).map_run_eq trivial

end Chebyshev

namespace Relaxation

/-- Sweeps with an operator that repeats its answers are repeated. -/
theorem sweepTimes_repeats (repeats : op.Repeats states) (inverse : Vector R n) (sweep : Sweep)
    (damping : R) (x : Vector R n) (count : Nat) (y : Vector R n) :
    (sweepTimes op inverse sweep damping x count y).Repeats states := by
  have pure_step (outcome : Except (Interrupted R n) (Vector R n)) :
      Attempt.Repeats (fun state : σ => (outcome, state)) states := by
    cases outcome with
    | ok value => exact repeats_pure value
    | error error => exact repeats_fail error
  induction count generalizing y with
  | zero => exact repeats_pure y
  | succ count ih =>
    refine Attempt.Repeats.bind ?_ ih
    cases sweep with
    | jacobi => exact (repeats.leaving y y).bind fun image => repeats_pure _
    | gaussSeidel | symmetricGaussSeidel => exact pure_step _

/-- Relaxations with the same settings and the same phase answer alike. -/
theorem applyInverseChecked_inStep (repeats : op.Repeats states)
    {relaxation found : Relaxation R n}
    (params : found.params = relaxation.params) (phase : found.phase = relaxation.phase)
    (x y : Array R) :
    (relaxation.applyInverseChecked op x y).InStep states Eq
      (fun result other => result.1 = other.1) (found.applyInverseChecked op x y) := by
  have ready : found.isComputed = relaxation.isComputed := by rw [isComputed, isComputed, phase]
  unfold applyInverseChecked
  rw [ready]
  refine inStep_ite Iff.rfl (fun _ => inStep_checkPair (fun v w => ?_) x y) fun _ =>
    inStep_fail rfl
  unfold applyInverse
  rw [phase, params]
  cases relaxation.phase with
  | fresh => exact inStep_fail rfl
  | prepared => exact inStep_fail rfl
  | computed inverse =>
    refine Attempt.InStep.bind (sweepTimes_repeats repeats inverse _ _ v _ _) ?_
    intro result other same
    exact inStep_pure same

/-- A relaxation after another computation, as it is seen from outside. -/
structure Unchanged (op : Operator σ R n) (relaxation found : Relaxation R n) : Prop where
  /-- The settings are the same. -/
  params : found.params = relaxation.params
  /-- The inverted diagonal is the same. -/
  inverse : found.inverseDiagonal? = relaxation.inverseDiagonal?
  /-- It answers alike for all vectors, whenever it is asked. -/
  answers : ∀ (x y : Array R) (state later : σ),
    ((relaxation.applyInverseChecked op x y).run state).1.map Prod.fst =
      ((found.applyInverseChecked op x y).run later).1.map Prod.fst

/-- A computation succeeds only if there are sweeps. -/
theorem sweeps_of_compute {relaxation : Relaxation R n}
    (success : (relaxation.compute op).error? = none) : relaxation.params.sweeps ≠ 0 := by
  obtain ⟨same, -⟩ := prepared_if_needed op relaxation
  intro none
  unfold compute at success
  generalize (if relaxation.isPrepared then relaxation else relaxation.prepare op) = start
    at same success
  dsimp only at success
  rw [same, if_pos none] at success
  cases success

/-- With sweeps it succeeds, keeps the settings and holds the inverted diagonal. -/
theorem compute_of_sweeps (op : Operator σ R n) {relaxation : Relaxation R n}
    (sweeps : relaxation.params.sweeps ≠ 0) :
    (relaxation.compute op).error? = none ∧
      (relaxation.compute op).after.params = relaxation.params ∧
      (relaxation.compute op).after.phase =
        .computed (invertDiagonal op relaxation.params.minDiagonal) := by
  obtain ⟨same, -⟩ := prepared_if_needed op relaxation
  unfold compute
  generalize (if relaxation.isPrepared then relaxation else relaxation.prepare op) = start
    at same ⊢
  dsimp only
  rw [same, if_neg sweeps]
  exact ⟨rfl, rfl, rfl⟩

/-- After a computation that succeeds another one succeeds and changes nothing. -/
theorem compute_again (repeats : op.Repeats fun _ _ => True) {relaxation : Relaxation R n}
    (success : (relaxation.compute op).error? = none) :
    let first := (relaxation.compute op).after
    (first.compute op).error? = none ∧ first.Unchanged op (first.compute op).after := by
  obtain ⟨-, params, phase⟩ := compute_of_sweeps op (sweeps_of_compute success)
  intro first
  have sweeps : first.params.sweeps ≠ 0 := by
    rw [params]
    exact sweeps_of_compute success
  obtain ⟨successAgain, paramsAgain, phaseAgain⟩ := compute_of_sweeps op sweeps
  have samePhase : (first.compute op).after.phase = first.phase := by rw [phaseAgain, params, phase]
  refine ⟨successAgain, paramsAgain, ?_, ?_⟩
  · rw [inverseDiagonal?, inverseDiagonal?, samePhase]
  · intro x y one other
    exact (applyInverseChecked_inStep repeats paramsAgain samePhase x y).map_run_eq trivial

end Relaxation

/-- For an operator that repeats its answers, in any arithmetic and whatever the settings
are: after a computation that succeeds, of a Chebyshev smoother or of a relaxation, another
one succeeds as well. It leaves the settings, the inverted diagonal and the bounds as they
were, and with them the answer to every application. -/
theorem recomputing_changes_nothing {σ R : Type} [Scalar R] {n : Nat} (op : Operator σ R n)
    (repeats : op.Repeats fun _ _ => True) :
    (∀ (kit : SpectralKit R) (smoother : Chebyshev R n) (state : σ),
      (smoother.compute kit op state).1.error? = none →
        let first := smoother.compute kit op state
        let second := first.1.after.compute kit op first.2
        second.1.error? = none ∧ first.1.after.Unchanged op second.1.after) ∧
    ∀ relaxation : Relaxation R n, (relaxation.compute op).error? = none →
      let first := relaxation.compute op
      let second := first.after.compute op
      second.error? = none ∧ first.after.Unchanged op second.after :=
  ⟨fun kit _ _ success => Chebyshev.compute_again repeats kit success _,
    fun _ success => Relaxation.compute_again repeats success⟩

/-- Two rows, a smoother that estimates its largest eigenvalue by the power method, and a
relaxation with default settings. -/
theorem recomputing_changes_nothing_two_rows :
    let polynomial : Chebyshev Rat 2 :=
      .ofParams { ChebyshevParams.default with estimation := .power }
    let point : Relaxation Rat 2 := .ofParams .default
    (twoRows.Repeats fun _ _ => True) ∧
      (polynomial.compute onesKit twoRows ()).1.error? = none ∧
      (point.compute twoRows).error? = none ∧
      (let first := polynomial.compute onesKit twoRows ()
        let second := first.1.after.compute onesKit twoRows first.2
        second.1.error? = none ∧ first.1.after.Unchanged twoRows second.1.after) ∧
      let first := point.compute twoRows
      let second := first.after.compute twoRows
      second.error? = none ∧ first.after.Unchanged twoRows second.after := by
  intro polynomial point
  have repeats : twoRows.Repeats fun _ _ => True := fun v state other _ => ⟨.ok rfl, trivial⟩
  have computed : (polynomial.compute onesKit twoRows ()).1.error? = none := by decide +kernel
  have swept : (point.compute twoRows).error? = none := by decide +kernel
  exact ⟨repeats, computed, swept,
    (recomputing_changes_nothing twoRows repeats).1 onesKit polynomial () computed,
    (recomputing_changes_nothing twoRows repeats).2 point swept⟩

end HexSlab

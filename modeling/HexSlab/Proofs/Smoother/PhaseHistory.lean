import HexSlab.Proofs.Smoother.ChebyshevCalls
import HexSlab.Proofs.Smoother.Corrections
import HexSlab.Proofs.Smoother.History
import HexSlab.Proofs.Smoother.RelaxationCalls

/-!
# Phases and counts of both smoothers

Each call on a smoother has one of the effects that calls may have, whatever the
operator does: an operator may fail at any call, and then the smoother is as it
was, up to the preparation that a computation begins with. So the history of
calls decides whether a smoother is prepared and computed and what its counts
are. Only a smoother that is not computed says so when it is applied.
-/

namespace HexSlab

/-- Applying a preconditioner says that it was not computed exactly if that is so,
and then it changes nothing. -/
structure RefusesUncomputed {σ R S : Type}
    (apply : Array R → Array R → Attempt σ (PreconditionerError R × Array R) (Array R × S))
    (computed : Bool) : Prop where
  /-- Nothing else leads to this error. -/
  refused_iff : ∀ x y state,
    (∃ left after, (apply x y).run state = (.error (.notComputed, left), after)) ↔
      computed = false
  /-- The vector and the state of the run are left alone. -/
  untouched : computed = false → ∀ x y state,
    (apply x y).run state = (.error (.notComputed, y), state)

/-- An operator never says that a preconditioner was not computed. -/
theorem leaving_failsOnly {σ R α : Type} {n : Nat} (attempt : Attempt σ OperatorError α)
    (vector : Vector R n) :
    (attempt.leaving vector).FailsOnly fun interrupted => interrupted.error ≠ .notComputed := by
  refine (Attempt.failsOnly_any attempt).mapError fun error _ same => ?_
  cases same

/-- An application that asks first whether anything was computed, and then checks
the lengths, refuses if what it goes on with has other errors only. -/
theorem refusesUncomputed_checkPair {σ R S : Type} {n : Nat}
    {apply : Vector R n → Vector R n → Attempt σ (Interrupted R n) (Vector R n × S)}
    {computed : Bool}
    (others : computed = true → ∀ v w, (apply v w).FailsOnly fun interrupted =>
      interrupted.error ≠ .notComputed) :
    RefusesUncomputed (fun x y =>
      if computed then
        match checkPair n x y with
        | .error error => Attempt.fail (.operator error, y)
        | .ok (x, y) => do
          let result ← (apply x y).mapError fun e => (e.error, e.vector.toArray)
          pure (result.1.toArray, result.2)
      else Attempt.fail (.notComputed, y)) computed := by
  cases computed with
  | false => exact ⟨fun x y state => iff_of_true ⟨y, state, rfl⟩ rfl, fun _ _ _ _ => rfl⟩
  | true =>
    refine ⟨fun x y state => iff_of_false ?_ Bool.noConfusion, fun none => by cases none⟩
    rintro ⟨left, after, run⟩
    rw [if_pos rfl] at run
    have lengths (error : OperatorError) :
        (.operator error : PreconditionerError R) ≠ .notComputed := fun same => by cases same
    have only := Attempt.failsOnly_checkPair (· ≠ .notComputed) x y lengths (others rfl)
    exact only state _ after run rfl

namespace Chebyshev

variable {σ R : Type} {n : Nat}

/-- What a call asks for. -/
def Call.request : Call R → Request
  | .setParameters _ => .setParameters
  | .prepare => .prepare
  | .compute => .compute
  | .applyInverse _ _ => .apply
  | .estimateCondition _ => .estimate

/-- Where a Chebyshev smoother keeps its phase, its inverted diagonal with the
bounds, and its statistics, in a run with states. -/
def phaseView : PhaseView (Chebyshev R n × σ) (Vector R n × ChebyshevBounds R) where
  isPrepared := fun state => state.1.isPrepared
  isComputed := fun state => state.1.isComputed
  kept? := fun state => state.1.kept?
  stats := fun state => state.1.stats

/-- A computation begins with a smoother that was prepared, and with the same data. -/
theorem prepared_first (op : Operator σ R n) (smoother : Chebyshev R n) (state : σ) :
    let prepared := if smoother.isPrepared then smoother else smoother.prepare op
    prepared.isPrepared = true ∧ prepared.isComputed = smoother.isComputed ∧
      prepared.kept? = smoother.kept? ∧
      prepared.stats = phaseView.preparedStats (smoother, state) := by
  obtain ⟨params, phase, sizes, condition, stats⟩ := smoother
  cases phase <;> exact ⟨rfl, rfl, rfl, rfl⟩

variable [Scalar R]

/-- The recurrence fails only where the operator does. -/
theorem recurrence_failsOnly (op : Operator σ R n) (inverse : Vector R n)
    (bounds : ChebyshevBounds R) (x : Vector R n) (degrees : Nat) (y w : Vector R n) (rho : R) :
    (recurrence op inverse bounds x degrees y w rho).FailsOnly fun interrupted =>
      interrupted.error ≠ .notComputed := by
  induction degrees generalizing y w rho with
  | zero => exact Attempt.failsOnly_pure y
  | succ degrees ih => exact (leaving_failsOnly _ y).bind fun image => ih _ _ _

/-- So does an application of a smoother that was computed. -/
theorem applyInverse_failsOnly (smoother : Chebyshev R n) (op : Operator σ R n)
    (ready : smoother.isComputed = true) (x y : Vector R n) :
    (smoother.applyInverse op x y).FailsOnly fun interrupted =>
      interrupted.error ≠ .notComputed := by
  unfold applyInverse
  rcases phase : smoother.phase with _ | _ | ⟨inverse, bounds⟩
  · rw [isComputed, phase] at ready
    cases ready
  · rw [isComputed, phase] at ready
    cases ready
  · dsimp only
    split
    · exact Attempt.failsOnly_pure _
    have first : (firstStep op inverse bounds smoother.params.zeroStart x y).FailsOnly
        fun interrupted => interrupted.error ≠ .notComputed := by
      unfold firstStep
      split
      · exact Attempt.failsOnly_pure _
      · exact (leaving_failsOnly _ y).bind fun image => Attempt.failsOnly_pure _
    exact (first.bind fun begun => recurrence_failsOnly op inverse bounds x _ _ _ _).bind
      fun result => Attempt.failsOnly_pure _

/-- Only a smoother that was not computed refuses to be applied as such. -/
theorem refusesUncomputed_applyInverse (smoother : Chebyshev R n) (op : Operator σ R n) :
    RefusesUncomputed (smoother.applyInverseChecked op) smoother.isComputed :=
  refusesUncomputed_checkPair fun ready => applyInverse_failsOnly smoother op ready

/-- Every call on a smoother has one of the effects that calls may have. -/
theorem answer_effect (kit : SpectralKit R) (op : Operator σ R n) (call : Call R)
    (state : Chebyshev R n × σ) :
    phaseView.Effect state (answer kit op call state).after
      (recordOf (answer kit op) Call.request call state) := by
  obtain ⟨smoother, inner⟩ := state
  unfold recordOf answer
  cases call with
  | setParameters list =>
    dsimp only [Call.request, Outcome.beside]
    unfold setParameters
    rcases (ChebyshevParams.update list).run smoother.params with ⟨error | _, params⟩
    · exact .unchanged _ rfl (fun accepted => by cases accepted) rfl rfl rfl rfl
    · obtain ⟨_, phase, _, _, _⟩ := smoother
      cases phase <;> exact .replaced rfl rfl rfl
  | prepare => exact .prepared rfl rfl rfl
  | compute =>
    obtain ⟨isPrepared, isComputed, kept, stats⟩ := prepared_first op smoother inner
    dsimp only [Call.request, Outcome.beside]
    unfold compute
    generalize (if smoother.isPrepared then smoother else smoother.prepare op) = prepared at *
    dsimp only
    rcases settingsError? prepared.params with _ | error
    · dsimp only
      rcases estimateSpectrum kit op (invertDiagonal op prepared.params.minDiagonal)
        prepared.params inner with ⟨error | found, after⟩
      · exact .refused isPrepared isComputed kept stats
      · dsimp only
        unfold settle
        rcases checkedBounds found with error | bounds
        · exact .refused isPrepared isComputed kept stats
        · refine .computed (estimateFlops prepared.sizes found) rfl rfl ?_
          rw [← stats]
          rfl
    · exact .refused isPrepared isComputed kept stats
  | applyInverse x y =>
    dsimp only
    rcases applied : (smoother.applyInverseChecked op x y).run inner with ⟨failure | result, after⟩
    · exact .unchanged _ rfl (fun accepted => by cases accepted) rfl rfl rfl rfl
    · have counted := applyInverseChecked_yields smoother op x y inner result after applied
      dsimp only [Outcome.success]
      rw [counted]
      exact .applied smoother.applyFlops rfl rfl rfl
  | estimateCondition iterations =>
    dsimp only [Outcome.beside]
    unfold estimateCondition
    split
    · split <;> exact .unchanged _ rfl (fun _ => rfl) rfl rfl rfl rfl
    · exact .unchanged _ rfl (fun _ => rfl) rfl rfl rfl rfl

end Chebyshev

namespace Relaxation

variable {σ R : Type} {n : Nat}

/-- What a call asks for. -/
def Call.request : Call R → Request
  | .setParameters _ => .setParameters
  | .prepare => .prepare
  | .compute => .compute
  | .applyInverse _ _ => .apply

/-- Where a relaxation keeps its phase, its inverted diagonal and its statistics,
in a run with states. -/
def phaseView : PhaseView (Relaxation R n × σ) (Vector R n) where
  isPrepared := fun state => state.1.isPrepared
  isComputed := fun state => state.1.isComputed
  kept? := fun state => state.1.inverseDiagonal?
  stats := fun state => state.1.stats

/-- A computation begins with a relaxation that was prepared, and with the same
data. -/
theorem prepared_first (op : Operator σ R n) (relaxation : Relaxation R n) (state : σ) :
    let prepared := if relaxation.isPrepared then relaxation else relaxation.prepare op
    prepared.isPrepared = true ∧ prepared.isComputed = relaxation.isComputed ∧
      prepared.inverseDiagonal? = relaxation.inverseDiagonal? ∧
      prepared.stats = phaseView.preparedStats (relaxation, state) := by
  obtain ⟨params, phase, rows, entries, stats⟩ := relaxation
  cases phase <;> exact ⟨rfl, rfl, rfl, rfl⟩

variable [Scalar R]

/-- A pass fails only at a row that does not fit. -/
theorem gaussSeidelPass_error (op : Operator σ R n) (inverse : Vector R n) (damping : R)
    (x : Vector R n) (order : List (Fin n)) (y : Vector R n) {interrupted : Interrupted R n}
    (failed : gaussSeidelPass op inverse damping x order y = .error interrupted) :
    interrupted.error = .shapesDiffer := by
  induction order generalizing y with
  | nil => cases failed
  | cons i rest ih =>
    rw [gaussSeidelPass_cons] at failed
    rcases found : rowSum? y (op.row i) with _ | sum
    · rw [found] at failed
      have same := Except.error.inj failed
      rw [← same]
    · rw [found] at failed
      exact ih _ failed

/-- A sweep fails only where the operator does, or at a row that does not fit. -/
theorem sweepOnce_failsOnly (op : Operator σ R n) (inverse : Vector R n) (sweep : Sweep)
    (damping : R) (x y : Vector R n) :
    (sweepOnce op inverse sweep damping x y).FailsOnly fun interrupted =>
      interrupted.error ≠ .notComputed := by
  have pass (order : List (Fin n)) (y : Vector R n) {interrupted : Interrupted R n}
      (failed : gaussSeidelPass op inverse damping x order y = .error interrupted) :
      interrupted.error ≠ .notComputed := by
    rw [gaussSeidelPass_error op inverse damping x order y failed]
    simp
  cases sweep with
  | jacobi => exact (leaving_failsOnly _ y).bind fun image => Attempt.failsOnly_pure _
  | gaussSeidel =>
    intro state interrupted after run
    exact pass _ _ (congrArg Prod.fst run)
  | symmetricGaussSeidel =>
    intro state interrupted after run
    have failed : (gaussSeidelPass op inverse damping x (List.finRange n) y).bind
        (gaussSeidelPass op inverse damping x (List.finRange n).reverse) = .error interrupted :=
      congrArg Prod.fst run
    rcases forward : gaussSeidelPass op inverse damping x (List.finRange n) y with found | between
    · rw [forward] at failed
      have same : found = interrupted := Except.error.inj failed
      rw [← same]
      exact pass _ _ forward
    · rw [forward] at failed
      exact pass _ between failed

/-- So does a number of sweeps. -/
theorem sweepTimes_failsOnly (op : Operator σ R n) (inverse : Vector R n) (sweep : Sweep)
    (damping : R) (x : Vector R n) (count : Nat) (y : Vector R n) :
    (sweepTimes op inverse sweep damping x count y).FailsOnly fun interrupted =>
      interrupted.error ≠ .notComputed := by
  induction count generalizing y with
  | zero => exact Attempt.failsOnly_pure y
  | succ count ih => exact (sweepOnce_failsOnly op inverse sweep damping x y).bind ih

/-- So does an application of a relaxation that was computed. -/
theorem applyInverse_failsOnly (relaxation : Relaxation R n) (op : Operator σ R n)
    (ready : relaxation.isComputed = true) (x y : Vector R n) :
    (relaxation.applyInverse op x y).FailsOnly fun interrupted =>
      interrupted.error ≠ .notComputed := by
  unfold applyInverse
  rcases phase : relaxation.phase with _ | _ | inverse
  · rw [isComputed, phase] at ready
    cases ready
  · rw [isComputed, phase] at ready
    cases ready
  · have swept := sweepTimes_failsOnly op inverse relaxation.params.sweep
      relaxation.params.damping x relaxation.params.sweeps
      (if relaxation.params.zeroStart then Vec.fill 0 else y)
    exact swept.bind fun result => Attempt.failsOnly_pure _

/-- Only a relaxation that was not computed refuses to be applied as such. -/
theorem refusesUncomputed_applyInverse (relaxation : Relaxation R n) (op : Operator σ R n) :
    RefusesUncomputed (relaxation.applyInverseChecked op) relaxation.isComputed :=
  refusesUncomputed_checkPair fun ready => applyInverse_failsOnly relaxation op ready

/-- Every call on a relaxation has one of the effects that calls may have. -/
theorem answer_effect (op : Operator σ R n) (call : Call R) (state : Relaxation R n × σ) :
    phaseView.Effect state (answer op call state).after
      (recordOf (answer op) Call.request call state) := by
  obtain ⟨relaxation, inner⟩ := state
  unfold recordOf answer
  cases call with
  | setParameters list =>
    dsimp only [Call.request, Outcome.beside]
    unfold setParameters
    rcases (RelaxationParams.update list).run relaxation.params with ⟨error | _, params⟩
    · exact .unchanged _ rfl (fun accepted => by cases accepted) rfl rfl rfl rfl
    · obtain ⟨_, phase, _, _, _⟩ := relaxation
      cases phase <;> exact .replaced rfl rfl rfl
  | prepare => exact .prepared rfl rfl rfl
  | compute =>
    obtain ⟨isPrepared, isComputed, kept, stats⟩ := prepared_first op relaxation inner
    dsimp only [Call.request, Outcome.beside]
    unfold compute
    generalize (if relaxation.isPrepared then relaxation else relaxation.prepare op) = prepared at *
    dsimp only
    split
    · exact .refused isPrepared isComputed kept stats
    · refine .computed (Float.ofNat prepared.rows) rfl rfl ?_
      rw [← stats]
      rfl
  | applyInverse x y =>
    dsimp only
    rcases applied : (relaxation.applyInverseChecked op x y).run inner with
      ⟨failure | result, after⟩
    · exact .unchanged _ rfl (fun accepted => by cases accepted) rfl rfl rfl rfl
    · have counted := applyInverseChecked_yields relaxation op x y inner result after applied
      dsimp only [Outcome.success]
      rw [counted]
      exact .applied relaxation.applyFlops rfl rfl rfl

end Relaxation

/-- What was called on a smoother, and which of it succeeded, decides its phase
and its counts, and an application is refused for want of a computation exactly
in the phases without one. Operators may fail at any call. -/
theorem phases_follow_history {σ R : Type} [Scalar R] {n : Nat} (kit : SpectralKit R)
    (op : Operator σ R n) (state : σ)
    (polynomial : ChebyshevParams R) (polynomialCalls : List (Chebyshev.Call R))
    (point : RelaxationParams R) (pointCalls : List (Relaxation.Call R)) :
    (let answer := Chebyshev.answer kit op
     let start : Chebyshev R n × σ := (.ofParams polynomial, state)
     let reached := (afterCalls answer start polynomialCalls).1
     Chebyshev.phaseView.DecidedByHistory answer Chebyshev.Call.request start polynomialCalls ∧
       RefusesUncomputed (reached.applyInverseChecked op) reached.isComputed) ∧
    (let answer := Relaxation.answer op
     let start : Relaxation R n × σ := (.ofParams point, state)
     let reached := (afterCalls answer start pointCalls).1
     Relaxation.phaseView.DecidedByHistory answer Relaxation.Call.request start pointCalls ∧
       RefusesUncomputed (reached.applyInverseChecked op) reached.isComputed) := by
  refine ⟨⟨?_, ?_⟩, ?_, ?_⟩
  · exact PhaseView.decidedByHistory
      (fun call state => (Chebyshev.answer_effect kit op call state).follows) rfl rfl rfl
      polynomialCalls
  · exact Chebyshev.refusesUncomputed_applyInverse _ op
  · exact PhaseView.decidedByHistory
      (fun call state => (Relaxation.answer_effect op call state).follows) rfl rfl rfl pointCalls
  · exact Relaxation.refusesUncomputed_applyInverse _ op

end HexSlab

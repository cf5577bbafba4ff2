import HexSlab.Proofs.Attempts
import HexSlab.Proofs.Smoother.Calls
import HexSlab.Smoother.Chebyshev

/-!
# Calls on a Chebyshev smoother

What each call may do to the settings of a smoother and to the data that it
keeps of a computation: the inverted diagonal and the bounds. A list that is
refused has replaced the settings before the one that cannot be read, and a
computation that is refused may have replaced the eigenvalues; in both cases
the data kept is that of the settings before.
-/

namespace HexSlab

namespace Chebyshev

variable {σ R : Type} [Scalar R] {n : Nat}

/-- A call on a Chebyshev smoother. -/
inductive Call (R : Type) where
  /-- Read parameters. -/
  | setParameters (list : ParameterList R)
  /-- Prepare for the structure of the operator. -/
  | prepare
  /-- Compute from the values of the operator. -/
  | compute
  /-- Apply to a right-hand side and a start. -/
  | applyInverse (x y : Array R)
  /-- Estimate the condition number. -/
  | estimateCondition (iterations : Nat)

/-- What a call leaves of a smoother and of the state of the run. -/
def answer (kit : SpectralKit R) (op : Operator σ R n) (call : Call R)
    (state : Chebyshev R n × σ) : Outcome (PreconditionerError R) (Chebyshev R n × σ) :=
  match call with
  | .setParameters list => (state.1.setParameters list).beside state.2
  | .prepare => .success (state.1.prepare op, state.2)
  | .compute =>
    let computed := state.1.compute kit op state.2
    computed.1.beside computed.2
  | .applyInverse x y =>
    match (state.1.applyInverseChecked op x y).run state.2 with
    | (.ok result, after) => .success (result.2, after)
    | (.error failure, after) => .failure (state.1, after) failure.1
  | .estimateCondition iterations =>
    let estimated := state.1.estimateCondition kit op iterations state.2
    estimated.1.beside estimated.2

/-- A smoother that holds what its settings ask for. -/
structure MatchesSettings (op : Operator σ R n) (smoother : Chebyshev R n) : Prop where
  /-- The polynomial has a degree. -/
  degree_pos : 1 ≤ smoother.params.degree
  /-- The ratio of eigenvalues is positive. -/
  ratio_pos : 0 < smoother.params.ratio
  /-- The bounds are those of the largest eigenvalue and the ratio. -/
  bounds : smoother.bounds? = some (.ofSpectrum smoother.params.lambdaMax smoother.params.ratio)
  /-- The diagonal was inverted with the bound of the settings. -/
  inverse : smoother.inverseDiagonal? = some (invertDiagonal op smoother.params.minDiagonal)

/-- New settings that can be computed with, to the same bounds and the same
inverted diagonal as the old ones. -/
structure MayReplace (op : Operator σ R n) (old new : ChebyshevParams R) : Prop where
  /-- The polynomial has a degree. -/
  degree_pos : 1 ≤ new.degree
  /-- The ratio of eigenvalues is positive. -/
  ratio_pos : 0 < new.ratio
  /-- The bounds do not change. -/
  bounds : ChebyshevBounds.ofSpectrum new.lambdaMax new.ratio = .ofSpectrum old.lambdaMax old.ratio
  /-- The inverted diagonal does not change. -/
  inverse : invertDiagonal op new.minDiagonal = invertDiagonal op old.minDiagonal

/-- A list or a computation that is refused while the smoother can be applied
leaves settings that may replace the ones before. Nothing is asked of the other
calls. -/
def KeepsInStep (kit : SpectralKit R) (op : Operator σ R n) (call : Call R)
    (state : Chebyshev R n × σ) : Prop :=
  match call with
  | .setParameters list =>
    let outcome := state.1.setParameters list
    state.1.isComputed = true → outcome.error?.isSome = true →
      MayReplace op state.1.params outcome.after.params
  | .compute =>
    let outcome := (state.1.compute kit op state.2).1
    state.1.isComputed = true → outcome.error?.isSome = true →
      MayReplace op state.1.params outcome.after.params
  | _ => True

/-- The data kept of a computation. -/
def kept? (smoother : Chebyshev R n) : Option (Vector R n × ChebyshevBounds R) :=
  match smoother.phase with
  | .computed inverse bounds => some (inverse, bounds)
  | _ => none

/-- The settings and the data of a Chebyshev smoother. -/
def view (op : Operator σ R n) :
    SetupView (Chebyshev R n) (ChebyshevParams R) (Vector R n × ChebyshevBounds R) where
  params := Chebyshev.params
  kept? := kept?
  usable := fun p => 1 ≤ p.degree ∧ 0 < p.ratio
  data := fun p => (invertDiagonal op p.minDiagonal, .ofSpectrum p.lambdaMax p.ratio)

omit [Scalar R] in
/-- Data is kept as long as the smoother can be applied. -/
theorem isSome_kept? (smoother : Chebyshev R n) : smoother.kept?.isSome = smoother.isComputed := by
  unfold kept? isComputed
  cases smoother.phase <;> rfl

/-- What is kept is what the settings ask for, as long as the smoother can be
applied. -/
theorem view_matches_iff (op : Operator σ R n) (smoother : Chebyshev R n) :
    (view op).Matches smoother ↔ (smoother.isComputed = true → smoother.MatchesSettings op) := by
  obtain ⟨params, phase, sizes, condition, stats⟩ := smoother
  constructor
  · intro matched ready
    cases phase with
    | fresh => cases ready
    | prepared => cases ready
    | computed inverse bounds =>
      obtain ⟨⟨degree, ratio⟩, same⟩ := matched (inverse, bounds) rfl
      obtain ⟨inverse_eq, bounds_eq⟩ := Prod.mk.inj same
      exact ⟨degree, ratio, congrArg some bounds_eq, congrArg some inverse_eq⟩
  · intro held kept found
    cases phase with
    | fresh => cases found
    | prepared => cases found
    | computed inverse bounds =>
      obtain ⟨degree, ratio, bounds_eq, inverse_eq⟩ := held rfl
      refine ⟨⟨degree, ratio⟩, ?_⟩
      rw [← Option.some.inj found]
      exact Prod.ext (Option.some.inj inverse_eq) (Option.some.inj bounds_eq)

/-- Settings that may be replaced, in terms of what is kept. -/
theorem view_mayReplace_iff (op : Operator σ R n) (old new : ChebyshevParams R) :
    (view op).MayReplace old new ↔ MayReplace op old new := by
  constructor
  · rintro ⟨⟨degree, ratio⟩, same⟩
    obtain ⟨inverse_eq, bounds_eq⟩ := Prod.mk.inj same
    exact ⟨degree, ratio, bounds_eq, inverse_eq⟩
  · rintro ⟨degree, ratio, bounds_eq, inverse_eq⟩
    exact ⟨⟨degree, ratio⟩, Prod.ext inverse_eq bounds_eq⟩

/-- A list that was read calls for another computation; one that was not may
have replaced settings all the same. -/
theorem setParameters_effect (op : Operator σ R n) (smoother : Chebyshev R n)
    (list : ParameterList R) :
    (view op).Effect smoother (smoother.setParameters list).after
      (smoother.setParameters list).error? := by
  unfold setParameters
  rcases (ChebyshevParams.update list).run smoother.params with ⟨_ | _, params⟩
  · exact .outdated rfl rfl
  · refine .dropped ?_ fun _ => rfl
    obtain ⟨_, phase, _, _, _⟩ := smoother
    cases phase <;> rfl

/-- An estimate of the spectrum replaces eigenvalues only. -/
theorem estimateSpectrum_yields (kit : SpectralKit R) (op : Operator σ R n)
    (inverse : Vector R n) (params : ChebyshevParams R) :
    (estimateSpectrum kit op inverse params).Yields fun found =>
      found.degree = params.degree ∧ found.ratio = params.ratio ∧
        found.minDiagonal = params.minDiagonal := by
  unfold estimateSpectrum
  dsimp only
  cases params.estimation with
  | given => exact Attempt.yields_pure ⟨rfl, rfl, rfl⟩
  | power =>
    exact (Attempt.yields_any _).bind fun _ _ => Attempt.yields_pure ⟨rfl, rfl, rfl⟩
  | cg => exact (Attempt.yields_any _).bind fun _ _ => Attempt.yields_pure ⟨rfl, rfl, rfl⟩

/-- Bounds that pass the check are those of the largest eigenvalue. -/
theorem checkedBounds_eq_ok {params : ChebyshevParams R} {bounds : ChebyshevBounds R}
    (checked : checkedBounds params = .ok bounds) :
    bounds = .ofSpectrum params.lambdaMax params.ratio := by
  unfold checkedBounds at checked
  split at checked
  · dsimp only at checked
    split at checked
    · exact (Except.ok.inj checked).symm
    · cases checked
  · cases checked

/-- Settings that can be computed with have a degree and a positive ratio. -/
theorem settingsError?_eq_none {params : ChebyshevParams R}
    (accepted : settingsError? params = none) : 1 ≤ params.degree ∧ 0 < params.ratio := by
  unfold settingsError? at accepted
  split at accepted
  · cases accepted
  · rename_i degree
    split at accepted
    · rename_i ratio
      exact ⟨Nat.one_le_iff_ne_zero.mpr degree, ratio⟩
    · cases accepted

omit [Scalar R] in
/-- Preparing a smoother that was not prepared drops nothing. -/
theorem prepared_if_needed (op : Operator σ R n) (smoother : Chebyshev R n) :
    let prepared := if smoother.isPrepared then smoother else smoother.prepare op
    prepared.params = smoother.params ∧ prepared.kept? = smoother.kept? := by
  obtain ⟨_, phase, _, _, _⟩ := smoother
  cases phase <;> exact ⟨rfl, rfl⟩

/-- The last step of a computation, with settings that can be computed with. -/
theorem settle_effect (op : Operator σ R n) (before smoother : Chebyshev R n)
    (kept : smoother.kept? = before.kept?)
    (usable : 1 ≤ smoother.params.degree ∧ 0 < smoother.params.ratio) :
    let outcome := smoother.settle (invertDiagonal op smoother.params.minDiagonal)
    (view op).Effect before outcome.after outcome.error? := by
  unfold settle
  rcases checked : checkedBounds smoother.params with error | bounds
  · exact .outdated rfl kept
  · refine .computed rfl usable ?_
    rw [checkedBounds_eq_ok checked]
    rfl

/-- A computation that succeeds keeps what its settings ask for; one that fails
keeps what there was, and may have replaced eigenvalues. -/
theorem compute_effect (kit : SpectralKit R) (op : Operator σ R n) (smoother : Chebyshev R n)
    (state : σ) :
    (view op).Effect smoother (smoother.compute kit op state).1.after
      (smoother.compute kit op state).1.error? := by
  obtain ⟨params_eq, kept_eq⟩ := prepared_if_needed op smoother
  unfold compute
  generalize (if smoother.isPrepared then smoother else smoother.prepare op) = prepared at *
  dsimp only
  rcases accepted : settingsError? prepared.params with _ | error
  · have usable := settingsError?_eq_none accepted
    dsimp only
    rcases estimated : estimateSpectrum kit op (invertDiagonal op prepared.params.minDiagonal)
      prepared.params state with ⟨error | found, after⟩
    · exact .unchanged params_eq kept_eq
    · obtain ⟨degree, ratio, diagonal⟩ := estimateSpectrum_yields kit op _ _ _ _ _ estimated
      dsimp only
      rw [← diagonal]
      have still : 1 ≤ found.degree ∧ 0 < found.ratio := by
        rw [degree, ratio]
        exact usable
      exact settle_effect op smoother { prepared with params := found } kept_eq still
  · exact .unchanged params_eq kept_eq

/-- Outside the identity shortcut an application is the recurrence, and counts itself. -/
theorem applyInverse_eq_smooth {smoother : Chebyshev R n} {inverse : Vector R n}
    {bounds : ChebyshevBounds R} (computed : smoother.phase = .computed inverse bounds)
    (outside : isIdentity smoother.params = false) (op : Operator σ R n) (x y : Vector R n) :
    smoother.applyInverse op x y =
      (smooth op inverse bounds smoother.params.degree smoother.params.zeroStart x y >>=
        fun solved => pure (solved, smoother.recordApply)) := by
  rw [applyInverse, computed]
  dsimp only
  rw [outside, if_neg Bool.false_ne_true]

/-- An application that succeeds only counts itself. -/
theorem applyInverse_yields (smoother : Chebyshev R n) (op : Operator σ R n)
    (x y : Vector R n) :
    (smoother.applyInverse op x y).Yields fun result => result.2 = smoother.recordApply := by
  unfold applyInverse
  cases smoother.phase with
  | fresh => exact Attempt.yields_fail _
  | prepared => exact Attempt.yields_fail _
  | computed inverse bounds =>
    dsimp only
    split
    · exact Attempt.yields_pure rfl
    · exact (Attempt.yields_any _).bind fun _ _ => Attempt.yields_pure rfl

/-- The same with checks of the lengths. -/
theorem applyInverseChecked_yields (smoother : Chebyshev R n) (op : Operator σ R n)
    (x y : Array R) :
    (smoother.applyInverseChecked op x y).Yields fun result =>
      result.2 = smoother.recordApply := by
  unfold applyInverseChecked
  split
  · split
    · exact Attempt.yields_fail _
    · rename_i v w _
      refine ((applyInverse_yields smoother op v w).mapError _).bind fun result counted => ?_
      exact Attempt.yields_pure counted
  · exact Attempt.yields_fail _

/-- An application leaves a smoother as it was, or counted once more. -/
theorem applyInverse_leaves (kit : SpectralKit R) (op : Operator σ R n) (x y : Array R)
    (state : Chebyshev R n × σ) :
    let after := (answer kit op (.applyInverse x y) state).after.1
    after = state.1 ∨ after = state.1.recordApply := by
  unfold answer
  dsimp only
  rcases applied : (state.1.applyInverseChecked op x y).run state.2 with ⟨failure | result, after⟩
  · exact .inl rfl
  · exact .inr (applyInverseChecked_yields state.1 op x y _ _ _ applied)

/-- So it changes neither settings nor data, whether it succeeds or not. -/
theorem applyInverse_unchanged (kit : SpectralKit R) (op : Operator σ R n) (x y : Array R)
    (state : Chebyshev R n × σ) :
    let after := (answer kit op (.applyInverse x y) state).after.1
    after.params = state.1.params ∧ after.kept? = state.1.kept? := by
  dsimp only
  rcases applyInverse_leaves kit op x y state with same | counted
  · rw [same]
    exact ⟨rfl, rfl⟩
  · rw [counted]
    exact ⟨rfl, rfl⟩

/-- Neither does an estimate of the condition number. -/
theorem estimateCondition_unchanged (kit : SpectralKit R) (op : Operator σ R n)
    (smoother : Chebyshev R n) (iterations : Nat) (state : σ) :
    let after := (smoother.estimateCondition kit op iterations state).1.after
    after.params = smoother.params ∧ after.kept? = smoother.kept? := by
  unfold estimateCondition
  split
  · split <;> exact ⟨rfl, rfl⟩
  · exact ⟨rfl, rfl⟩

/-- A call keeps settings and data in step exactly if it is not refused with
settings that may not replace the ones before. -/
theorem answer_matches_iff (kit : SpectralKit R) (op : Operator σ R n) (call : Call R)
    (state : Chebyshev R n × σ)
    (held : state.1.isComputed = true → state.1.MatchesSettings op) :
    ((answer kit op call state).after.1.isComputed = true →
        (answer kit op call state).after.1.MatchesSettings op) ↔
      KeepsInStep kit op call state := by
  rw [← view_matches_iff] at held ⊢
  cases call with
  | setParameters list =>
    rw [KeepsInStep, ← isSome_kept?, ← view_mayReplace_iff]
    exact (setParameters_effect op state.1 list).matches_iff held
  | prepare => exact iff_of_true (fun _ found => by cases found) trivial
  | compute =>
    rw [KeepsInStep, ← isSome_kept?, ← view_mayReplace_iff]
    exact (compute_effect kit op state.1 state.2).matches_iff held
  | applyInverse x y =>
    obtain ⟨params, kept⟩ := applyInverse_unchanged kit op x y state
    exact iff_of_true (held.of_eq params kept) trivial
  | estimateCondition iterations =>
    obtain ⟨params, kept⟩ := estimateCondition_unchanged kit op state.1 iterations state.2
    exact iff_of_true (held.of_eq params kept) trivial

end Chebyshev

end HexSlab

import HexSlab.Proofs.Attempts
import HexSlab.Proofs.Smoother.Calls
import HexSlab.Smoother.Relaxation

/-!
# Calls on a point relaxation

What each call may do to the settings of a relaxation and to the inverted
diagonal that it keeps. Only a list that is refused may leave settings that the
diagonal does not belong to: a computation changes no settings.
-/

namespace HexSlab

namespace Relaxation

variable {σ R : Type} [Scalar R] {n : Nat}

/-- A call on a point relaxation. -/
inductive Call (R : Type) where
  /-- Read parameters. -/
  | setParameters (list : ParameterList R)
  /-- Prepare for the structure of the operator. -/
  | prepare
  /-- Compute from the values of the operator. -/
  | compute
  /-- Apply to a right-hand side and a start. -/
  | applyInverse (x y : Array R)

/-- What a call leaves of a relaxation and of the state of the run. -/
def answer (op : Operator σ R n) (call : Call R) (state : Relaxation R n × σ) :
    Outcome (PreconditionerError R) (Relaxation R n × σ) :=
  match call with
  | .setParameters list => (state.1.setParameters list).beside state.2
  | .prepare => .success (state.1.prepare op, state.2)
  | .compute => (state.1.compute op).beside state.2
  | .applyInverse x y =>
    match (state.1.applyInverseChecked op x y).run state.2 with
    | (.ok result, after) => .success (result.2, after)
    | (.error failure, after) => .failure (state.1, after) failure.1

/-- A relaxation that holds what its settings ask for. -/
structure MatchesSettings (op : Operator σ R n) (relaxation : Relaxation R n) : Prop where
  /-- There is a sweep. -/
  sweeps_pos : 1 ≤ relaxation.params.sweeps
  /-- The diagonal was inverted with the bound of the settings. -/
  inverse : relaxation.inverseDiagonal? = some (invertDiagonal op relaxation.params.minDiagonal)

/-- New settings that can be computed with, to the same inverted diagonal as the
old ones. -/
structure MayReplace (op : Operator σ R n) (old new : RelaxationParams R) : Prop where
  /-- There is a sweep. -/
  sweeps_pos : 1 ≤ new.sweeps
  /-- The inverted diagonal does not change. -/
  inverse : invertDiagonal op new.minDiagonal = invertDiagonal op old.minDiagonal

/-- A list that is refused while the relaxation can be applied leaves settings
that may replace the ones before. Nothing is asked of the other calls: not even
of a computation, which changes no settings. -/
def KeepsInStep (op : Operator σ R n) (call : Call R) (state : Relaxation R n × σ) : Prop :=
  match call with
  | .setParameters list =>
    let outcome := state.1.setParameters list
    state.1.isComputed = true → outcome.error?.isSome = true →
      MayReplace op state.1.params outcome.after.params
  | _ => True

/-- The settings and the data of a point relaxation. -/
def view (op : Operator σ R n) :
    SetupView (Relaxation R n) (RelaxationParams R) (Vector R n) where
  params := Relaxation.params
  kept? := inverseDiagonal?
  usable := fun p => 1 ≤ p.sweeps
  data := fun p => invertDiagonal op p.minDiagonal

omit [Scalar R] in
/-- The inverted diagonal is kept as long as the relaxation can be applied. -/
theorem isSome_inverseDiagonal? (relaxation : Relaxation R n) :
    relaxation.inverseDiagonal?.isSome = relaxation.isComputed := by
  unfold inverseDiagonal? isComputed
  cases relaxation.phase <;> rfl

/-- What is kept is what the settings ask for, as long as the relaxation can be
applied. -/
theorem view_matches_iff (op : Operator σ R n) (relaxation : Relaxation R n) :
    (view op).Matches relaxation ↔
      (relaxation.isComputed = true → relaxation.MatchesSettings op) := by
  rw [← isSome_inverseDiagonal?]
  constructor
  · intro matched ready
    obtain ⟨inverse, found⟩ := Option.isSome_iff_exists.mp ready
    obtain ⟨sweeps, same⟩ := matched inverse found
    exact ⟨sweeps, found.trans (congrArg some same)⟩
  · intro held inverse found
    obtain ⟨sweeps, same⟩ := held (Option.isSome_iff_exists.mpr ⟨inverse, found⟩)
    exact ⟨sweeps, Option.some.inj (found.symm.trans same)⟩

/-- Settings that may be replaced, in terms of what is kept. -/
theorem view_mayReplace_iff (op : Operator σ R n) (old new : RelaxationParams R) :
    (view op).MayReplace old new ↔ MayReplace op old new :=
  ⟨fun ⟨sweeps, same⟩ => ⟨sweeps, same⟩, fun ⟨sweeps, same⟩ => ⟨sweeps, same⟩⟩

/-- A list that was read calls for another computation; one that was not may
have replaced settings all the same. -/
theorem setParameters_effect (op : Operator σ R n) (relaxation : Relaxation R n)
    (list : ParameterList R) :
    (view op).Effect relaxation (relaxation.setParameters list).after
      (relaxation.setParameters list).error? := by
  unfold setParameters
  rcases (RelaxationParams.update list).run relaxation.params with ⟨_ | _, params⟩
  · exact .outdated rfl rfl
  · refine .dropped ?_ fun _ => rfl
    obtain ⟨_, phase, _, _, _⟩ := relaxation
    cases phase <;> rfl

omit [Scalar R] in
/-- Preparing a relaxation that was not prepared drops nothing. -/
theorem prepared_if_needed (op : Operator σ R n) (relaxation : Relaxation R n) :
    let prepared := if relaxation.isPrepared then relaxation else relaxation.prepare op
    prepared.params = relaxation.params ∧
      prepared.inverseDiagonal? = relaxation.inverseDiagonal? := by
  obtain ⟨_, phase, _, _, _⟩ := relaxation
  cases phase <;> exact ⟨rfl, rfl⟩

/-- A computation never leaves settings and data out of step: it changes no
settings, and it fails only for want of sweeps. -/
theorem compute_matches (op : Operator σ R n) (relaxation : Relaxation R n)
    (matched : (view op).Matches relaxation) :
    (view op).Matches (relaxation.compute op).after := by
  obtain ⟨params_eq, kept_eq⟩ := prepared_if_needed op relaxation
  unfold compute
  generalize (if relaxation.isPrepared then relaxation else relaxation.prepare op) = prepared at *
  dsimp only
  split
  · exact matched.of_eq params_eq kept_eq
  · rename_i sweeps
    intro inverse found
    exact ⟨Nat.one_le_iff_ne_zero.mpr sweeps, (Option.some.inj found).symm⟩

/-- An application that succeeds only counts itself. -/
theorem applyInverse_yields (relaxation : Relaxation R n) (op : Operator σ R n)
    (x y : Vector R n) :
    (relaxation.applyInverse op x y).Yields fun result => result.2 = relaxation.recordApply := by
  unfold applyInverse
  cases relaxation.phase with
  | fresh => exact Attempt.yields_fail _
  | prepared => exact Attempt.yields_fail _
  | computed inverse => exact (Attempt.yields_any _).bind fun _ _ => Attempt.yields_pure rfl

/-- The same with checks of the lengths. -/
theorem applyInverseChecked_yields (relaxation : Relaxation R n) (op : Operator σ R n)
    (x y : Array R) :
    (relaxation.applyInverseChecked op x y).Yields fun result =>
      result.2 = relaxation.recordApply := by
  unfold applyInverseChecked
  split
  · split
    · exact Attempt.yields_fail _
    · rename_i v w _
      refine ((applyInverse_yields relaxation op v w).mapError _).bind fun result counted => ?_
      exact Attempt.yields_pure counted
  · exact Attempt.yields_fail _

/-- Applying a relaxation changes neither settings nor data, whether it succeeds
or not. -/
theorem applyInverse_unchanged (op : Operator σ R n) (x y : Array R)
    (state : Relaxation R n × σ) :
    let after := (answer op (.applyInverse x y) state).after.1
    after.params = state.1.params ∧ after.inverseDiagonal? = state.1.inverseDiagonal? := by
  unfold answer
  dsimp only
  rcases applied : (state.1.applyInverseChecked op x y).run state.2 with ⟨failure | result, after⟩
  · exact ⟨rfl, rfl⟩
  · have counted := applyInverseChecked_yields state.1 op x y _ _ _ applied
    dsimp only [Outcome.success]
    rw [counted]
    exact ⟨rfl, rfl⟩

/-- A call keeps settings and data in step exactly if it is not a list that is
refused with settings that may not replace the ones before. -/
theorem answer_matches_iff (op : Operator σ R n) (call : Call R) (state : Relaxation R n × σ)
    (held : state.1.isComputed = true → state.1.MatchesSettings op) :
    ((answer op call state).after.1.isComputed = true →
        (answer op call state).after.1.MatchesSettings op) ↔
      KeepsInStep op call state := by
  rw [← view_matches_iff] at held ⊢
  cases call with
  | setParameters list =>
    rw [KeepsInStep, ← isSome_inverseDiagonal?, ← view_mayReplace_iff]
    exact (setParameters_effect op state.1 list).matches_iff held
  | prepare => exact iff_of_true (fun _ found => by cases found) trivial
  | compute => exact iff_of_true (compute_matches op state.1 held) trivial
  | applyInverse x y =>
    obtain ⟨params, kept⟩ := applyInverse_unchanged op x y state
    exact iff_of_true (held.of_eq params kept) trivial

end Relaxation

end HexSlab

import HexSlab.Proofs.Exact
import HexSlab.Proofs.Smoother.ChebyshevCalls
import HexSlab.Proofs.Smoother.RelaxationCalls

/-!
# Computed preconditioners and their settings

A computed preconditioner keeps data that belongs to its settings. Calls that
succeed keep the two in step, over sequences of any length. A call that is
refused may leave settings behind that were replaced before the refusal, and
then they differ exactly if the new settings ask for other data, or for none.
-/

namespace HexSlab

section Runs

variable {σ R : Type} [Scalar R] {n : Nat}

/-- When computed preconditioners match their settings. Over every sequence of
calls on a preconditioner with any settings, each call succeeding or failing:
all states match exactly if every list, and for the Chebyshev smoother every
computation, that is refused while the preconditioner can be applied leaves
settings that may replace the ones before. -/
theorem computed_matches_settings_iff (kit : SpectralKit R) (op : Operator σ R n) (state : σ)
    (polynomial : ChebyshevParams R) (polynomialCalls : List (Chebyshev.Call R))
    (point : RelaxationParams R) (pointCalls : List (Relaxation.Call R)) :
    (HoldsThroughout (Chebyshev.answer kit op)
        (fun reached => reached.1.isComputed = true → reached.1.MatchesSettings op)
        (.ofParams polynomial, state) polynomialCalls ↔
      EachCall (Chebyshev.answer kit op) (Chebyshev.KeepsInStep kit op)
        (.ofParams polynomial, state) polynomialCalls) ∧
    (HoldsThroughout (Relaxation.answer op)
        (fun reached => reached.1.isComputed = true → reached.1.MatchesSettings op)
        (.ofParams point, state) pointCalls ↔
      EachCall (Relaxation.answer op) (Relaxation.KeepsInStep op)
        (.ofParams point, state) pointCalls) :=
  ⟨holdsThroughout_iff (Chebyshev.answer_matches_iff kit op) (fun ready => by cases ready)
      polynomialCalls,
    holdsThroughout_iff (Relaxation.answer_matches_iff op) (fun ready => by cases ready)
      pointCalls⟩

/-- The operator that multiplies two entries by two and four. -/
def twoRows : Operator Unit Rat 2 := .ofAction (Vec.diagonal ![2, 4]) Unit

/-- Start vectors of ones. The ends of a spectrum are not looked for. -/
def onesKit : SpectralKit Rat := ⟨fun _ _ => Vec.fill 1, fun _ => (1, 1)⟩

/-- A list that cannot be read after its degree was. -/
def noDegreeList : ParameterList Rat :=
  .ofList [(ChebyshevParams.degreeKey, .int 0), (ChebyshevParams.zeroStartKey, .int 1)]

/-- A list that cannot be read after its number of iterations was. -/
def noIterationsList : ParameterList Rat :=
  .ofList [(ChebyshevParams.iterationsKey, .int 0), (ChebyshevParams.estimationKey, .int 1)]

/-- A list that cannot be read after its number of sweeps was. -/
def noSweepsList : ParameterList Rat :=
  .ofList [(RelaxationParams.sweepsKey, .int 0), (RelaxationParams.zeroStartKey, .int 1)]

/-- Three ways to lose the match: a list refused after its degree was read, a
computation refused after it replaced an eigenvalue, and a list refused after
its number of sweeps was read. -/
theorem refusals_lose_match :
    ¬ HoldsThroughout (Chebyshev.answer onesKit twoRows)
        (fun reached => reached.1.isComputed = true → reached.1.MatchesSettings twoRows)
        (.ofParams .default, ()) [.compute, .setParameters noDegreeList] ∧
    ¬ HoldsThroughout (Chebyshev.answer onesKit twoRows)
        (fun reached => reached.1.isComputed = true → reached.1.MatchesSettings twoRows)
        (.ofParams { ChebyshevParams.default with estimation := .power }, ())
        [.compute, .setParameters noIterationsList, .compute] ∧
    ¬ HoldsThroughout (Relaxation.answer twoRows)
        (fun reached => reached.1.isComputed = true → reached.1.MatchesSettings twoRows)
        (.ofParams .default, ()) [.compute, .setParameters noSweepsList] := by
  refine ⟨fun throughout => ?_, fun throughout => ?_, fun throughout => ?_⟩
  · have positive := (throughout _ (List.prefix_refl _) (by decide +kernel)).degree_pos
    revert positive
    decide +kernel
  · have bounds := (throughout _ (List.prefix_refl _) (by decide +kernel)).bounds
    have upper := congrArg (Option.map ChebyshevBounds.beta) bounds
    revert upper
    decide +kernel
  · have positive := (throughout _ (List.prefix_refl _) (by decide +kernel)).sweeps_pos
    revert positive
    decide +kernel

end Runs

end HexSlab

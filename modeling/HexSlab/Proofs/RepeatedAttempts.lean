import HexSlab.Proofs.Krylov.LooserLimits
import HexSlab.Spectrum.Lanczos
import HexSlab.Spectrum.Power

/-!
# Attempts that are repeated

An attempt is repeated if it has the same outcome in all states that agree. There is one
rule for each way to build an attempt, so what asks nothing but products of an operator
that repeats its answers is repeated: both estimates of eigenvalues are, in any
arithmetic.
-/

namespace HexSlab

variable {σ R : Type} {n : Nat} {states : σ → σ → Prop}

namespace Attempt

variable {ε δ α β : Type}

/-- An attempt repeats its outcome in states that agree, and leaves such states. -/
def Repeats (attempt : Attempt σ ε α) (states : σ → σ → Prop) : Prop :=
  InStep states Eq Eq attempt attempt

/-- Success is repeated. -/
theorem repeats_pure (value : α) : (pure value : Attempt σ ε α).Repeats states :=
  inStep_pure rfl

/-- So is failure. -/
theorem repeats_fail (error : ε) : (fail error : Attempt σ ε α).Repeats states :=
  inStep_fail rfl

/-- A step that is repeated, and then one that is repeated from every result. -/
theorem Repeats.bind {first : Attempt σ ε α} {next : α → Attempt σ ε β}
    (start : first.Repeats states) (rest : ∀ value, (next value).Repeats states) :
    (first >>= next).Repeats states := by
  refine InStep.bind start ?_
  rintro value _ rfl
  exact rest value

/-- Errors in another form are repeated. -/
theorem Repeats.mapError {attempt : Attempt σ ε α} (repeats : attempt.Repeats states)
    (convert : ε → δ) : (attempt.mapError convert).Repeats states := by
  refine InStep.mapError repeats ?_
  rintro error _ rfl
  rfl

/-- A branch is repeated if both of its ways are. -/
theorem repeats_ite {condition : Prop} [Decidable condition] {yes no : Attempt σ ε α}
    (first : yes.Repeats states) (second : no.Repeats states) :
    (if condition then yes else no).Repeats states :=
  inStep_ite Iff.rfl (fun _ => first) fun _ => second

/-- Behind the check of their lengths two applications to vectors are in step with the
same vectors, if they are so for all vectors. -/
theorem inStep_checkPair {S : Type}
    {apply copy : Vector R n → Vector R n → Attempt σ (Interrupted R n) (Vector R n × S)}
    (inner : ∀ v w,
      InStep states Eq (fun result found => result.1 = found.1) (apply v w) (copy v w))
    (x y : Array R) :
    InStep states Eq (fun result found => result.1 = found.1)
      (match checkPair n x y with
        | .error error => fail (.operator error, y)
        | .ok (x, y) => do
          let result ← (apply x y).mapError fun e => (e.error, e.vector.toArray)
          pure (result.1.toArray, result.2) :
        Attempt σ (PreconditionerError R × Array R) (Array R × S))
      (match checkPair n x y with
        | .error error => fail (.operator error, y)
        | .ok (x, y) => do
          let result ← (copy x y).mapError fun e => (e.error, e.vector.toArray)
          pure (result.1.toArray, result.2)) := by
  split
  · exact inStep_fail rfl
  · rename_i v w _
    have converted : InStep states Eq (fun result found => result.1 = found.1)
        ((apply v w).mapError fun e => (e.error, e.vector.toArray))
        ((copy v w).mapError fun e => (e.error, e.vector.toArray)) := by
      refine (inner v w).mapError ?_
      rintro error _ rfl
      rfl
    exact converted.bind fun result found same => inStep_pure (congrArg Vector.toArray same)

/-- Runs in step have outcomes whose agreeing parts are equal. -/
theorem InStep.map_run_eq {left : Attempt σ ε α} {right : Attempt σ ε β} {γ : Type}
    {part : α → γ} {partRight : β → γ} {state other : σ}
    (inner : InStep states Eq (fun result found => part result = partRight found) left right)
    (related : states state other) :
    (left.run state).1.map part = (right.run other).1.map partRight := by
  obtain ⟨outcomes, -⟩ := inner state other related
  generalize (left.run state).1 = outcome at outcomes ⊢
  generalize (right.run other).1 = found at outcomes ⊢
  cases outcomes with
  | ok agree => exact congrArg Except.ok agree
  | error agree => exact congrArg Except.error agree

end Attempt

open Attempt

variable {op : Operator σ R n}

/-- A product for an estimate is repeated. -/
theorem Operator.Repeats.estimating (repeats : op.Repeats states) (v : Vector R n) :
    ((op.apply v).mapError (.operator : _ → PreconditionerError R)).Repeats states :=
  Attempt.Repeats.mapError (repeats v) _

/-- So is a product for an iterate that is left if it fails. -/
theorem Operator.Repeats.leaving (repeats : op.Repeats states) (v y : Vector R n) :
    ((op.apply v).leaving y).Repeats states :=
  Attempt.Repeats.mapError (repeats v) _

variable [Scalar R]

/-- Power iterations with an operator that repeats its answers are repeated. -/
theorem powerIterations_repeats (repeats : op.Repeats states) (inverse : Vector R n)
    (steps : Nat) (x : Vector R n) (estimate : R) :
    (powerIterations op inverse steps x estimate).Repeats states := by
  induction steps generalizing x estimate with
  | zero => exact repeats_pure estimate
  | succ steps ih =>
    unfold powerIterations
    refine (repeats.estimating x).bind fun image => ?_
    exact repeats_ite (repeats_fail _) (ih _ _)

/-- So is the power method. -/
theorem powerMethod_repeats (repeats : op.Repeats states) (inverse start : Vector R n)
    (iterations : Nat) : (powerMethod op inverse start iterations).Repeats states := by
  unfold powerMethod
  exact repeats_ite (repeats_fail _) (powerIterations_repeats repeats inverse iterations _ _)

/-- Steps of conjugate gradients with such an operator are repeated. -/
theorem lanczosSteps_repeats (repeats : op.Repeats states) (inverse : Vector R n) (bound : R)
    (count : Nat) (r p : Vector R n) (rz : R) :
    (lanczosSteps op inverse bound count r p rz).Repeats states := by
  induction count generalizing r p rz with
  | zero => exact repeats_pure _
  | succ count ih =>
    unfold lanczosSteps
    refine repeats_ite ((repeats.estimating p).bind fun q => ?_) (repeats_pure _)
    refine repeats_ite (repeats_ite (repeats_pure _) ?_) (repeats_pure _)
    exact repeats_ite ((ih _ _ _).bind fun rest => repeats_pure _) (repeats_pure _)

/-- So is the estimate from them. -/
theorem cgEstimate_repeats (repeats : op.Repeats states) (extremes : Tridiagonal R → R × R)
    (inverse start : Vector R n) (iterations : Nat) :
    (cgEstimate extremes op inverse start iterations).Repeats states := by
  unfold cgEstimate lanczosRun
  refine (lanczosSteps_repeats repeats inverse _ iterations _ _ _).bind fun run => ?_
  exact repeats_ite (repeats_fail _) (repeats_pure _)

end HexSlab

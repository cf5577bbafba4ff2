import HexSlab.Krylov.System
import HexSlab.Proofs.Attempts

/-!
# Counting the calls of an operator

An operator can be given a counter in the state of the run, which every call
raises by one, whether it succeeds or fails. Nothing that works with the operator
sees the counter, so a run with it does what the run without it does, and at its
end the counter says how often the operator was called. A preconditioner leaves
the counter alone: calls that it makes on its own are not counted.
-/

namespace HexSlab

namespace Attempt

variable {σ ε δ α β : Type}

/-- An attempt with a counter does what another one does without it, and raises
the counter by at most a number. -/
def Counts (counted : Attempt (σ × Nat) ε α) (plain : Attempt σ ε α) (most : Nat) : Prop :=
  ∀ state calls, ∃ made, made ≤ most ∧
    counted.run (state, calls) = ((plain.run state).1, (plain.run state).2, calls + made)

/-- Nothing is counted where nothing is done. -/
theorem counts_pure (value : α) :
    (pure value : Attempt (σ × Nat) ε α).Counts (pure value) 0 :=
  fun _ _ => ⟨0, Nat.le_refl _, rfl⟩

/-- Nothing is counted where only an error is raised. -/
theorem counts_fail (error : ε) : (fail error : Attempt (σ × Nat) ε α).Counts (fail error) 0 :=
  fun _ _ => ⟨0, Nat.le_refl _, rfl⟩

/-- An attempt that leaves the counter alone. -/
theorem counts_besides (attempt : Attempt σ ε α) : attempt.besides.Counts attempt 0 :=
  fun _ _ => ⟨0, Nat.le_refl _, rfl⟩

/-- A larger number bounds the calls as well. -/
theorem Counts.mono {counted : Attempt (σ × Nat) ε α} {plain : Attempt σ ε α} {most more : Nat}
    (counts : counted.Counts plain most) (larger : most ≤ more) : counted.Counts plain more := by
  intro state calls
  obtain ⟨made, bound, run⟩ := counts state calls
  exact ⟨made, Nat.le_trans bound larger, run⟩

/-- The calls of two steps are added. -/
theorem Counts.bind {first : Attempt (σ × Nat) ε α} {plain : Attempt σ ε α}
    {next : α → Attempt (σ × Nat) ε β} {nextPlain : α → Attempt σ ε β} {most more : Nat}
    (start : first.Counts plain most) (rest : ∀ value, (next value).Counts (nextPlain value) more) :
    (first >>= next).Counts (plain >>= nextPlain) (most + more) := by
  intro state calls
  obtain ⟨made, bound, run⟩ := start state calls
  rw [run_bind, run_bind, run]
  rcases plain.run state with ⟨error | value, between⟩
  · exact ⟨made, by omega, rfl⟩
  · obtain ⟨later, laterBound, laterRun⟩ := rest value between (calls + made)
    have added : calls + made + later = calls + (made + later) := Nat.add_assoc calls made later
    rw [added] at laterRun
    exact ⟨made + later, by omega, laterRun⟩

/-- Giving errors another form makes no calls. -/
theorem Counts.mapError {counted : Attempt (σ × Nat) ε α} {plain : Attempt σ ε α} {most : Nat}
    (counts : counted.Counts plain most) (convert : ε → δ) :
    (counted.mapError convert).Counts (plain.mapError convert) most := by
  intro state calls
  obtain ⟨made, bound, run⟩ := counts state calls
  refine ⟨made, bound, ?_⟩
  rw [run_mapError, run_mapError, run]
  rcases plain.run state with ⟨error | value, between⟩ <;> rfl

/-- Only one of two branches makes its calls. -/
theorem counts_ite {condition : Prop} [Decidable condition] {yes no : Attempt (σ × Nat) ε α}
    {yesPlain noPlain : Attempt σ ε α} {most : Nat} (first : yes.Counts yesPlain most)
    (second : no.Counts noPlain most) :
    (if condition then yes else no).Counts (if condition then yesPlain else noPlain) most := by
  by_cases taken : condition
  · rw [if_pos taken, if_pos taken]
    exact first
  · rw [if_neg taken, if_neg taken]
    exact second

end Attempt

variable {σ R : Type} {n : Nat}

/-- The operator in a run that counts its calls. -/
def Operator.counted (op : Operator σ R n) : Operator (σ × Nat) R n :=
  { op with
    apply := fun v state =>
      let outcome := op.apply v state.1
      (outcome.1, outcome.2, state.2 + 1) }

/-- A preconditioner in a run with a larger state. -/
def Preconditioner.besides {τ : Type} (preconditioner : Preconditioner σ R n) :
    Preconditioner (σ × τ) R n where
  applyInverse := fun r z => (preconditioner.applyInverse r z).besides

/-- Each call is counted once. -/
theorem Operator.counts_apply (op : Operator σ R n) (v : Vector R n) :
    (op.counted.apply v).Counts (op.apply v) 1 :=
  fun _ _ => ⟨1, Nat.le_refl _, rfl⟩

namespace LinearSystem

/-- The system in a run that counts the calls of its operator, those of the
preconditioner apart. -/
def counted (system : LinearSystem σ R n) : LinearSystem (σ × Nat) R n :=
  ⟨system.op.counted, system.preconditioner.map Preconditioner.besides, system.b, system.bNorm,
    system.maxIterations, system.tolerance⟩

/-- A product with the operator is one call. -/
theorem counts_apply (system : LinearSystem σ R n) (x v : Vector R n) :
    (system.counted.apply x v).Counts (system.apply x v) 1 :=
  (system.op.counts_apply v).mapError _

variable [Scalar R]

/-- The preconditioner is none of the calls. -/
theorem counts_precondition (system : LinearSystem σ R n) (x r : Vector R n) :
    (system.counted.precondition x r).Counts (system.precondition x r) 0 := by
  obtain ⟨op, preconditioner, b, bNorm, maxIterations, tolerance⟩ := system
  cases preconditioner with
  | none => exact Attempt.counts_pure r
  | some preconditioner => exact (Attempt.counts_besides _).mapError _

/-- The residual takes one call. -/
theorem counts_residual (system : LinearSystem σ R n) (x : Vector R n) :
    (system.counted.residual x).Counts (system.residual x) 1 :=
  (system.counts_apply x x).bind fun _ => Attempt.counts_pure _

end LinearSystem

end HexSlab

import HexSlab.Proofs.CountedCalls

/-!
# Steps with one product each

A loop that hands its iterate to the operator and makes the next iterate from the image
stops at the first product that fails. That step has changed nothing yet, so the loop
leaves what the same loop with fewer steps returns. How many steps there were is what a
counter in the state of the run says. No law of arithmetic is needed for any of this.
-/

namespace HexSlab

variable {σ R S K : Type} {n : Nat}

/-- A counted call does what the call does, and is counted. -/
theorem Operator.run_counted_eq_iff {op : Operator σ R n} {v : Vector R n} {state after : σ}
    {calls total : Nat} {outcome : Except OperatorError (Vector R n)} :
    (op.counted.apply v).run (state, calls) = (outcome, after, total) ↔
      (op.apply v).run state = (outcome, after) ∧ total = calls + 1 := by
  have counts : (op.counted.apply v).run (state, calls) =
      (((op.apply v).run state).1, ((op.apply v).run state).2, calls + 1) := rfl
  rw [counts, Prod.mk.injEq, Prod.mk.injEq, Prod.ext_iff, and_assoc, eq_comm (a := total)]

/-- Steps with one product each: the operator is given the iterate of what is kept
between the steps, and its image advances what is kept. -/
def productSteps (op : Operator σ R n) (iterate : K → Vector R n)
    (advance : K → Vector R n → K) : Nat → K → Attempt σ (Interrupted R n) (Vector R n)
  | 0, kept => pure (iterate kept)
  | count + 1, kept => do
    let image ← (op.apply (iterate kept)).leaving (iterate kept)
    productSteps op iterate advance count (advance kept image)

section Steps

variable {op : Operator σ R n} {iterate : K → Vector R n} {advance : K → Vector R n → K}

/-- A step whose product succeeds goes on from the image. -/
theorem run_productSteps_of_ok {kept : K} {state after : σ} {image : Vector R n}
    (applied : (op.apply (iterate kept)).run state = (.ok image, after)) (count : Nat) :
    (productSteps op iterate advance (count + 1) kept).run state =
      (productSteps op iterate advance count (advance kept image)).run after := by
  rw [productSteps, Attempt.run_bind, Attempt.leaving, Attempt.run_mapError, applied]

/-- A step whose product fails leaves the iterate that the product was asked for. -/
theorem run_productSteps_of_error {kept : K} {state after : σ} {error : OperatorError}
    (applied : (op.apply (iterate kept)).run state = (.error error, after)) (count : Nat) :
    (productSteps op iterate advance (count + 1) kept).run state =
      (.error ⟨.operator error, iterate kept⟩, after) := by
  rw [productSteps, Attempt.run_bind, Attempt.leaving, Attempt.run_mapError, applied]

/-- Either all steps are taken, or after some of them the product of what they return
fails. -/
theorem productSteps_completes_or_fails (op : Operator σ R n) (iterate : K → Vector R n)
    (advance : K → Vector R n → K) (count : Nat) (kept : K) (state : σ) :
    (∃ solved after,
      (productSteps op iterate advance count kept).run state = (.ok solved, after)) ∨
    ∃ made < count, ∃ v between error after,
      (productSteps op iterate advance made kept).run state = (.ok v, between) ∧
      (op.apply v).run between = (.error error, after) := by
  induction count generalizing kept state with
  | zero => exact .inl ⟨iterate kept, state, rfl⟩
  | succ count ih =>
    rcases applied : (op.apply (iterate kept)).run state with ⟨error | image, after⟩
    · exact .inr ⟨0, Nat.succ_pos count, iterate kept, state, error, after, rfl, applied⟩
    · rw [run_productSteps_of_ok applied]
      refine (ih (advance kept image) after).imp_right ?_
      rintro ⟨made, fewer, v, between, error, last, part, failed⟩
      refine ⟨made + 1, Nat.succ_lt_succ fewer, v, between, error, last, ?_, failed⟩
      rw [run_productSteps_of_ok applied]
      exact part

/-- If the product of what some steps return fails, then any more steps leave that
behind. -/
theorem run_productSteps_of_part {made : Nat} {kept : K} {state between after : σ}
    {v : Vector R n} {error : OperatorError}
    (part : (productSteps op iterate advance made kept).run state = (.ok v, between))
    (failed : (op.apply v).run between = (.error error, after)) {count : Nat}
    (more : made < count) :
    (productSteps op iterate advance count kept).run state =
      (.error ⟨.operator error, v⟩, after) := by
  obtain ⟨further, rfl⟩ := Nat.exists_eq_add_of_lt more
  induction made generalizing kept state with
  | zero =>
    obtain ⟨same, rfl⟩ := Prod.mk.inj part
    rw [← Except.ok.inj same] at failed ⊢
    exact run_productSteps_of_error failed (0 + further)
  | succ made ih =>
    rcases applied : (op.apply (iterate kept)).run state with ⟨found | image, next⟩
    · rw [run_productSteps_of_error applied] at part
      cases (Prod.mk.inj part).1
    · have order : made + 1 + further + 1 = made + further + 1 + 1 := by omega
      rw [run_productSteps_of_ok applied] at part
      rw [order, run_productSteps_of_ok applied]
      exact ih part (by omega)

/-- Steps that are all taken make as many calls. -/
theorem calls_of_productSteps {count : Nat} {kept : K} {state after : σ} {calls total : Nat}
    {v : Vector R n}
    (run : (productSteps op.counted iterate advance count kept).run (state, calls) =
      (.ok v, after, total)) : total = calls + count := by
  induction count generalizing kept state calls with
  | zero =>
    obtain ⟨-, same⟩ := Prod.mk.inj run
    exact (Prod.mk.inj same).2.symm
  | succ count ih =>
    rcases applied : (op.apply (iterate kept)).run state with ⟨error | image, next⟩
    · rw [run_productSteps_of_error (Operator.run_counted_eq_iff.mpr ⟨applied, rfl⟩)] at run
      cases (Prod.mk.inj run).1
    · rw [run_productSteps_of_ok (Operator.run_counted_eq_iff.mpr ⟨applied, rfl⟩)] at run
      rw [ih run]
      omega

end Steps

/-- An application makes so many products, unless one of them fails. It stops at the
first that does, with the operator's error, and leaves what `part` returns for the number
of products before. -/
structure StopsAtFailure (op : Operator σ R n) (products : Nat)
    (whole : Attempt (σ × Nat) (PreconditionerError R × Array R) (Array R × S))
    (part : Nat → Attempt (σ × Nat) (PreconditionerError R × Array R) (Array R × S)) : Prop where
  /-- A success has made all the products. -/
  completes : ∀ state result after calls,
    whole.run (state, 0) = (.ok result, after, calls) → calls = products
  /-- A failure comes from a product that fails on what the ones before have led to, and
  every such product is a failure. -/
  fails_iff : ∀ state failure after calls,
    whole.run (state, 0) = (.error failure, after, calls) ↔
      ∃ made < products, calls = made + 1 ∧
        ∃ (v : Vector R n) (kept : S) (between : σ) (error : OperatorError),
          (part made).run (state, 0) = (.ok (v.toArray, kept), between, made) ∧
          (op.apply v).run between = (.error error, after) ∧
          failure = (.operator error, v.toArray)

/-- An application does not ask the operator for a product: it is the same for every
operator with the same rows and diagonal, and the state of the run is left alone. -/
structure NeverCalls (op : Operator σ R n)
    (application : Operator σ R n →
      Attempt σ (PreconditionerError R × Array R) (Array R × S)) : Prop where
  /-- Another product makes no difference. -/
  same : ∀ product, application { op with apply := product } = application op
  /-- The state stays as it is. -/
  still : ∀ state, ((application op).run state).2 = state

/-- What an application reports of a computation: the vector as a list of entries,
with its cause after a failure and with the smoother after a success. -/
def Attempt.reporting (solve : Attempt σ (Interrupted R n) (Vector R n)) (counted : S) :
    Attempt σ (PreconditionerError R × Array R) (Array R × S) := do
  let solved ← solve.mapError fun e => (e.error, e.vector.toArray)
  pure (solved.toArray, counted)

/-- An application that counts itself after a computation reports what that comes to. -/
theorem Attempt.reporting_eq (solve : Attempt σ (Interrupted R n) (Vector R n)) (counted : S) :
    (do
      let result ← Attempt.mapError (fun e => (e.error, e.vector.toArray)) do
        let solved ← solve
        pure (solved, counted)
      pure (result.1.toArray, result.2) :
        Attempt σ (PreconditionerError R × Array R) (Array R × S)) = solve.reporting counted := by
  funext state
  simp only [bind, mapError, andThen, reporting]
  rcases solve state with ⟨interrupted | solved, after⟩ <;> rfl

/-- What is reported of a run of the computation. -/
theorem Attempt.run_reporting (solve : Attempt σ (Interrupted R n) (Vector R n)) (counted : S)
    (state : σ) : (solve.reporting counted).run state =
      match solve.run state with
      | (.ok solved, after) => (.ok (solved.toArray, counted), after)
      | (.error interrupted, after) =>
        (.error (interrupted.error, interrupted.vector.toArray), after) := by
  rw [reporting, run_bind, run_mapError]
  rcases solve.run state with ⟨interrupted | solved, after⟩ <;> rfl

/-- Reporting a computation leaves the state where that left it. -/
theorem Attempt.run_reporting_snd (solve : Attempt σ (Interrupted R n) (Vector R n)) (counted : S)
    (state : σ) : ((solve.reporting counted).run state).2 = (solve.run state).2 := by
  rw [run_reporting]
  rcases solve.run state with ⟨interrupted | solved, after⟩ <;> rfl

/-- A vector is reported as the result exactly if it is the result. -/
theorem Attempt.run_reporting_eq_ok {solve : Attempt σ (Interrupted R n) (Vector R n)}
    {counted kept : S} {state after : σ} {v : Vector R n}
    (run : (solve.reporting counted).run state = (.ok (v.toArray, kept), after)) :
    solve.run state = (.ok v, after) := by
  rw [run_reporting] at run
  rcases reached : solve.run state with ⟨interrupted | solved, between⟩
  · rw [reached] at run
    cases (Prod.mk.inj run).1
  · rw [reached] at run
    obtain ⟨result, same⟩ := Prod.mk.inj run
    have entries : solved.toArray = v.toArray := (Prod.mk.inj (Except.ok.inj result)).1
    rw [Vector.toArray_inj.mp entries, same]

/-- An application that takes steps with one product each stops at a failure with what
fewer of the steps return. -/
theorem stopsAtFailure_of_steps {op : Operator σ R n} {iterate : K → Vector R n}
    {advance : K → Vector R n → K} {count : Nat} {kept : K} {counted : S}
    {whole : Attempt (σ × Nat) (PreconditionerError R × Array R) (Array R × S)}
    {part : Nat → Attempt (σ × Nat) (PreconditionerError R × Array R) (Array R × S)}
    (takes : whole = (productSteps op.counted iterate advance count kept).reporting counted)
    (takesPart : ∀ made < count, ∃ other,
      part made = (productSteps op.counted iterate advance made kept).reporting other) :
    StopsAtFailure op count whole part where
  completes := by
    intro state result after calls run
    rw [takes, Attempt.run_reporting] at run
    rcases reached : (productSteps op.counted iterate advance count kept).run (state, 0) with
      ⟨interrupted | solved, between, total⟩
    · rw [reached] at run
      cases (Prod.mk.inj run).1
    · rw [reached] at run
      rw [← (Prod.mk.inj (Prod.mk.inj run).2).2, calls_of_productSteps reached, Nat.zero_add]
  fails_iff := by
    intro state failure after calls
    rw [takes]
    constructor
    · intro run
      rw [Attempt.run_reporting] at run
      rcases productSteps_completes_or_fails op.counted iterate advance count kept (state, 0) with
        ⟨solved, between, reached⟩ |
        ⟨made, fewer, v, ⟨between, total⟩, error, ⟨last, ended⟩, steps, failed⟩
      · rw [reached] at run
        cases (Prod.mk.inj run).1
      · have before : total = made := (calls_of_productSteps steps).trans (Nat.zero_add made)
        obtain ⟨other, returns⟩ := takesPart made fewer
        rw [run_productSteps_of_part steps failed fewer] at run
        simp only [Prod.mk.injEq, Except.error.injEq] at run
        obtain ⟨reason, rfl, counts⟩ := run
        obtain ⟨stopped, called⟩ := Operator.run_counted_eq_iff.mp failed
        rw [before] at steps called
        refine ⟨made, fewer, counts.symm.trans called, v, other, between, error, ?_, stopped,
          reason.symm⟩
        rw [returns, Attempt.run_reporting, steps]
    · rintro ⟨made, fewer, rfl, v, kept', between, error, steps, failed, rfl⟩
      obtain ⟨other, returns⟩ := takesPart made fewer
      rw [returns] at steps
      have counted : (op.counted.apply v).run (between, made) = (.error error, after, made + 1) :=
        Operator.run_counted_eq_iff.mpr ⟨failed, rfl⟩
      rw [Attempt.run_reporting,
        run_productSteps_of_part (Attempt.run_reporting_eq_ok steps) counted fewer]

end HexSlab

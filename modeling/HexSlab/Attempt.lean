/-!
# Runs whose state survives a failure

An attempt is a function of a state that ends with a result or with an error,
and in either case with a new state. What was done before a failure is
therefore never lost: counts, and parameters already replaced, stay. The steps
of an attempt are taken in order, up to the first error.
-/

namespace HexSlab

/-- A step over a state that may fail. -/
def Attempt (σ ε α : Type) : Type := σ → Except ε α × σ

namespace Attempt

variable {σ ε δ α β : Type}

/-- The outcome of an attempt from a given state. -/
@[inline] def run (attempt : Attempt σ ε α) (state : σ) : Except ε α × σ := attempt state

/-- Succeed without touching the state. -/
@[inline] def succeed (value : α) : Attempt σ ε α := fun state => (.ok value, state)

/-- Fail without touching the state. -/
@[inline] def fail (error : ε) : Attempt σ ε α := fun state => (.error error, state)

/-- Go on from a result, or stop at an error. -/
@[inline] def andThen (first : Attempt σ ε α) (next : α → Attempt σ ε β) : Attempt σ ε β :=
  fun state =>
    match first state with
    | (.ok value, state) => next value state
    | (.error error, state) => (.error error, state)

instance : Monad (Attempt σ ε) where
  pure := succeed
  bind := andThen

/-- Give an error another form. -/
@[inline] def mapError (convert : ε → δ) (attempt : Attempt σ ε α) : Attempt σ δ α :=
  fun state =>
    match attempt state with
    | (.ok value, state) => (.ok value, state)
    | (.error error, state) => (.error (convert error), state)

/-- The state as it stands. -/
@[inline] def current : Attempt σ ε σ := fun state => (.ok state, state)

/-- Replace the state. -/
@[inline] def update (replace : σ → σ) : Attempt σ ε Unit := fun state => (.ok (), replace state)

/-- Replace the state, unless the replacement fails. -/
def revise (replace : σ → Except ε σ) : Attempt σ ε Unit := fun state =>
  match replace state with
  | .ok state => (.ok (), state)
  | .error error => (.error error, state)

/-- The state that an attempt leads to, if it succeeds. -/
def finish (attempt : Attempt σ ε Unit) (state : σ) : Except ε σ :=
  match attempt.run state with
  | (.ok (), after) => .ok after
  | (.error error, _) => .error error

/-- Take part in a run with a larger state, whose second component is left alone. -/
def besides {τ : Type} (attempt : Attempt σ ε α) : Attempt (σ × τ) ε α := fun state =>
  let outcome := attempt state.1
  (outcome.1, outcome.2, state.2)

/-- Success without a step. -/
@[simp] theorem run_pure (value : α) (state : σ) :
    (pure value : Attempt σ ε α).run state = (.ok value, state) := rfl

/-- Failure without a step. -/
@[simp] theorem run_fail (error : ε) (state : σ) :
    (fail error : Attempt σ ε α).run state = (.error error, state) := rfl

/-- Looking at the state. -/
@[simp] theorem run_current (state : σ) :
    (current : Attempt σ ε σ).run state = (.ok state, state) := rfl

/-- Replacing the state. -/
@[simp] theorem run_update (replace : σ → σ) (state : σ) :
    (update replace : Attempt σ ε Unit).run state = (.ok (), replace state) := rfl

/-- A step after another. -/
theorem run_bind (first : Attempt σ ε α) (next : α → Attempt σ ε β) (state : σ) :
    (first >>= next).run state =
      match first.run state with
      | (.ok value, state) => (next value).run state
      | (.error error, state) => (.error error, state) := rfl

/-- The steps of an attempt may be grouped at will. -/
theorem andThen_assoc {γ : Type} (first : Attempt σ ε α) (next : α → Attempt σ ε β)
    (last : β → Attempt σ ε γ) :
    andThen (andThen first next) last = andThen first fun value => andThen (next value) last := by
  funext state
  simp only [andThen]
  rcases first state with ⟨_ | value, middle⟩ <;> rfl

instance : LawfulMonad (Attempt σ ε) :=
  LawfulMonad.mk' _
    (by
      intro α x
      funext state
      change (match x state with
        | (.ok value, state) => (Except.ok value, state)
        | (.error error, state) => (.error error, state)) = x state
      rcases x state with ⟨_ | value, after⟩ <;> rfl)
    (by intros; rfl)
    (by intros; exact andThen_assoc _ _ _)

end Attempt

end HexSlab

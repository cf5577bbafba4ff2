import HexSlab.Proofs.Attempts

/-!
# Two runs in step

Two attempts run in step if, from states that agree, both succeed with results
that agree, or both fail with errors that agree, and the states they leave agree
again. What it means to agree is chosen for each use: two runs of one algorithm
need not compute the same vectors to give the same answer. There is one rule for
each way to build an attempt, so two loops are compared step by step.
-/

namespace HexSlab.Attempt

variable {σ τ ε δ ε₁ δ₁ α β α₁ β₁ : Type}

/-- Both outcomes are results that agree, or both are errors that agree. -/
inductive Alike (errors : ε → δ → Prop) (results : α → β → Prop) : Except ε α → Except δ β → Prop
  /-- Both succeeded. -/
  | ok {value : α} {other : β} (agree : results value other) :
      Alike errors results (.ok value) (.ok other)
  /-- Both failed. -/
  | error {failure : ε} {other : δ} (agree : errors failure other) :
      Alike errors results (.error failure) (.error other)

/-- Results that agree may be known to agree in a weaker sense. -/
theorem Alike.mono {errors : ε → δ → Prop} {results weak : α → β → Prop} {outcome : Except ε α}
    {other : Except δ β} (alike : Alike errors results outcome other)
    (weaken : ∀ value other, results value other → weak value other) :
    Alike errors weak outcome other := by
  cases alike with
  | ok agree => exact .ok (weaken _ _ agree)
  | error agree => exact .error agree

/-- Outcomes that agree in being equal are equal. -/
theorem Alike.eq {outcome other : Except ε α} (alike : Alike Eq Eq outcome other) :
    outcome = other := by
  cases alike with
  | ok agree => rw [agree]
  | error agree => rw [agree]

/-- Two attempts have outcomes that agree from states that agree, and leave such
states. -/
def InStep (states : σ → τ → Prop) (errors : ε → δ → Prop) (results : α → β → Prop)
    (left : Attempt σ ε α) (right : Attempt τ δ β) : Prop :=
  ∀ state other, states state other →
    Alike errors results (left.run state).1 (right.run other).1 ∧
      states (left.run state).2 (right.run other).2

variable {states : σ → τ → Prop} {errors : ε → δ → Prop} {results : α → β → Prop}

/-- Two results that agree. -/
theorem inStep_pure {value : α} {other : β} (agree : results value other) :
    InStep states errors results (pure value) (pure other) :=
  fun _ _ related => ⟨.ok agree, related⟩

/-- Two failures that agree. -/
theorem inStep_fail {failure : ε} {other : δ} (agree : errors failure other) :
    InStep states errors results (fail failure) (fail other) :=
  fun _ _ related => ⟨.error agree, related⟩

/-- Two steps are in step with two others if the first are, and the second are
whenever they go on from results that agree. -/
theorem InStep.bind {left : Attempt σ ε α} {right : Attempt τ δ β} {next : α → Attempt σ ε α₁}
    {nextRight : β → Attempt τ δ β₁} {later : α₁ → β₁ → Prop}
    (first : InStep states errors results left right)
    (rest : ∀ value other, results value other →
      InStep states errors later (next value) (nextRight other)) :
    InStep states errors later (left >>= next) (right >>= nextRight) := by
  intro state other related
  have taken := first state other related
  rw [run_bind, run_bind]
  generalize left.run state = one at taken ⊢
  generalize right.run other = two at taken ⊢
  obtain ⟨outcome, after⟩ := one
  obtain ⟨outcomeRight, afterRight⟩ := two
  obtain ⟨outcomes, between⟩ := taken
  cases outcomes with
  | ok agree => exact rest _ _ agree after afterRight between
  | error agree => exact ⟨.error agree, between⟩

/-- Errors in another form agree if they come from errors that do. -/
theorem InStep.mapError {left : Attempt σ ε α} {right : Attempt τ δ β} {convert : ε → ε₁}
    {convertRight : δ → δ₁} {converted : ε₁ → δ₁ → Prop}
    (inner : InStep states errors results left right)
    (follows : ∀ failure other, errors failure other →
      converted (convert failure) (convertRight other)) :
    InStep states converted results (left.mapError convert) (right.mapError convertRight) := by
  intro state other related
  have taken := inner state other related
  rw [run_mapError, run_mapError]
  generalize left.run state = one at taken ⊢
  generalize right.run other = two at taken ⊢
  obtain ⟨outcome, after⟩ := one
  obtain ⟨outcomeRight, afterRight⟩ := two
  obtain ⟨outcomes, between⟩ := taken
  cases outcomes with
  | ok agree => exact ⟨.ok agree, between⟩
  | error agree => exact ⟨.error (follows _ _ agree), between⟩

/-- What results agree in may be weakened. -/
theorem InStep.mono {left : Attempt σ ε α} {right : Attempt τ δ β} {weak : α → β → Prop}
    (inner : InStep states errors results left right)
    (weaken : ∀ value other, results value other → weak value other) :
    InStep states errors weak left right := by
  intro state other related
  obtain ⟨outcomes, between⟩ := inner state other related
  exact ⟨outcomes.mono weaken, between⟩

/-- Branches are in step if they are taken together. -/
theorem inStep_ite {condition other : Prop} [Decidable condition] [Decidable other]
    {yes no : Attempt σ ε α} {yesRight noRight : Attempt τ δ β} (together : condition ↔ other)
    (first : condition → InStep states errors results yes yesRight)
    (second : ¬condition → InStep states errors results no noRight) :
    InStep states errors results (if condition then yes else no)
      (if other then yesRight else noRight) := by
  by_cases taken : condition
  · rw [if_pos taken, if_pos (together.mp taken)]
    exact first taken
  · rw [if_neg taken, if_neg fun elsewhere => taken (together.mpr elsewhere)]
    exact second taken

/-- Attempts that never fail are in step whatever their states are, if everything
that they attain agrees. -/
theorem inStep_of_attains {left : Attempt σ ε α} {right : Attempt τ δ β} {known : α → Prop}
    {knownRight : β → Prop} (attains : left.Attains known) (attainsRight : right.Attains knownRight)
    (agree : ∀ value other, known value → knownRight other → results value other) :
    InStep (fun _ _ => True) errors results left right := by
  intro state other _
  obtain ⟨value, after, run, fact⟩ := attains state
  obtain ⟨found, afterRight, runRight, factRight⟩ := attainsRight other
  rw [run, runRight]
  exact ⟨.ok (agree value found fact factRight), trivial⟩

/-- In larger states, whose second components agree in some sense and are left
alone, attempts stay in step. -/
theorem InStep.besides {left : Attempt σ ε α} {right : Attempt τ δ β} {σ' τ' : Type}
    (inner : InStep states errors results left right) (others : σ' → τ' → Prop) :
    InStep (fun state other => states state.1 other.1 ∧ others state.2 other.2) errors results
      left.besides right.besides := by
  intro state other related
  obtain ⟨outcomes, between⟩ := inner state.1 other.1 related.1
  exact ⟨outcomes, between, related.2⟩

/-- Runs in step whose outcomes agree in being equal give the same answer. -/
theorem InStep.run_eq {left : Attempt σ ε α} {right : Attempt τ ε α} {state : σ} {other : τ}
    (inner : InStep states Eq Eq left right) (related : states state other) :
    (left.run state).1 = (right.run other).1 :=
  (inner state other related).1.eq

end HexSlab.Attempt

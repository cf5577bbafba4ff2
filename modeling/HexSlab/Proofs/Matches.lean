import HexSlab.Proofs.InStep

/-!
# Results that another run matches

One attempt matches another if it succeeds whenever the other one does with a result
that is wanted, from states that agree, and with a result that goes with it. About the
errors of the other one, and about the results that nobody wants, nothing is said: there
the matching attempt may have gone on, or stopped long before. As long as both take the
same steps the judgment is carried along by runs in step.
-/

namespace HexSlab.Attempt

variable {σ τ ε δ α β α₁ β₁ : Type}

/-- Every wanted result of one attempt is matched by a result of another one, from states
that agree. -/
def Matches (states : σ → τ → Prop) (wanted : α → Prop) (agree : α → β → Prop)
    (left : Attempt σ ε α) (right : Attempt τ δ β) : Prop :=
  ∀ state other, states state other → ∀ value after, left.run state = (.ok value, after) →
    wanted value → ∃ found last, right.run other = (.ok found, last) ∧ agree value found

variable {states : σ → τ → Prop} {wanted : α → Prop} {agree : α → β → Prop}

/-- An attempt whose results agree with one result is matched by that. -/
theorem matches_pure {left : Attempt σ ε α} {found : β}
    (yields : left.Yields fun value => wanted value → agree value found) :
    Matches states wanted agree left (pure found : Attempt τ δ β) :=
  fun state other _ value after run want =>
    ⟨found, other, run_pure found other, yields state value after run want⟩

/-- Nothing has to match an attempt without a wanted result. -/
theorem matches_of_unwanted {left : Attempt σ ε α} (right : Attempt τ δ β)
    (yields : left.Yields fun value => ¬wanted value) : Matches states wanted agree left right :=
  fun state _ _ value after run want => absurd want (yields state value after run)

/-- Nothing has to match a failure. -/
theorem matches_fail (error : ε) (right : Attempt τ δ β) :
    Matches states wanted agree (fail error : Attempt σ ε α) right :=
  matches_of_unwanted right (yields_fail error)

/-- After steps that agree the rest of one attempt has to match the rest of the other. -/
theorem InStep.matches {errors : ε → δ → Prop} {results : α₁ → β₁ → Prop}
    {left : Attempt σ ε α₁} {right : Attempt τ δ β₁} {next : α₁ → Attempt σ ε α}
    {nextRight : β₁ → Attempt τ δ β} (first : InStep states errors results left right)
    (rest : ∀ value other, results value other →
      Matches states wanted agree (next value) (nextRight other)) :
    Matches states wanted agree (left >>= next) (right >>= nextRight) := by
  intro state other related value after run want
  obtain ⟨outcomes, between⟩ := first state other related
  rw [run_bind] at run
  rw [run_bind]
  generalize left.run state = one at outcomes between run
  generalize right.run other = two at outcomes between ⊢
  obtain ⟨outcome, middle⟩ := one
  obtain ⟨outcomeRight, middleRight⟩ := two
  cases outcomes with
  | ok agree => exact rest _ _ agree middle middleRight between value after run want
  | error agree => cases (Prod.mk.inj run).1

/-- A branch of one attempt has to match the same branch of the other. -/
theorem matches_ite {condition : Prop} [Decidable condition] {yes no : Attempt σ ε α}
    {yesRight noRight : Attempt τ δ β}
    (first : condition → Matches states wanted agree yes yesRight)
    (second : ¬condition → Matches states wanted agree no noRight) :
    Matches states wanted agree (if condition then yes else no)
      (if condition then yesRight else noRight) := by
  by_cases taken : condition
  · rw [if_pos taken, if_pos taken]
    exact first taken
  · rw [if_neg taken, if_neg taken]
    exact second taken

/-- Two attempts that may stop, the second one wherever the first one does. Where only the
second one stops, its result has to match whatever the first one still comes to. -/
theorem matches_stop {stops other : Prop} [Decidable stops] [Decidable other] {value : α}
    {found : β} {left : Attempt σ ε α} {right : Attempt τ δ β} (sooner : stops → other)
    (both : stops → wanted value → agree value found)
    (ahead : ¬stops → other → left.Yields fun value => wanted value → agree value found)
    (goesOn : ¬stops → ¬other → Matches states wanted agree left right) :
    Matches states wanted agree (if stops then pure value else left)
      (if other then pure found else right) := by
  by_cases stopped : stops
  · rw [if_pos stopped, if_pos (sooner stopped)]
    exact matches_pure (yields_pure (both stopped))
  · rw [if_neg stopped]
    by_cases alone : other
    · rw [if_pos alone]
      exact matches_pure (ahead stopped alone)
    · rw [if_neg alone]
      exact goesOn stopped alone

/-- Results and errors may be given another form on both sides. -/
theorem Matches.convert {ε₁ δ₁ : Type} {left : Attempt σ ε α} {right : Attempt τ δ β}
    (inner : Matches states wanted agree left right) (convert : ε → ε₁) (convertRight : δ → δ₁)
    {form : α → α₁} {formRight : β → β₁} {wantedForm : α₁ → Prop} {agreeForm : α₁ → β₁ → Prop}
    (comes : ∀ value, wantedForm (form value) → wanted value)
    (follows : ∀ value found, agree value found → agreeForm (form value) (formRight found)) :
    Matches states wantedForm agreeForm
      (left.mapError convert >>= fun value => pure (form value))
      (right.mapError convertRight >>= fun found => pure (formRight found)) := by
  intro state other related result after run want
  rw [run_bind, run_mapError] at run
  rcases reached : left.run state with ⟨error | value, between⟩
  · rw [reached] at run
    cases (Prod.mk.inj run).1
  · rw [reached] at run
    have same : form value = result := Except.ok.inj (Prod.mk.inj run).1
    rw [← same] at want ⊢
    obtain ⟨found, last, matching, agreed⟩ :=
      inner state other related value between reached (comes value want)
    refine ⟨formRight found, last, ?_, follows value found agreed⟩
    rw [run_bind, run_mapError, matching]
    rfl

end HexSlab.Attempt

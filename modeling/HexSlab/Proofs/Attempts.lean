import HexSlab.Smoother.Outcome

/-!
# What an attempt yields, attains and fails with

Three judgments on attempts. An attempt yields a property if each of its
successes has it, which says nothing about a run that fails. It attains a
property if it succeeds from every state with a result that has it. It fails
with a property only if each of its errors has it. All are carried from step to
step by one rule for each way to build an attempt, so a loop is treated by an
induction on its steps and never by its states.
-/

namespace HexSlab.Attempt

variable {σ ε δ α β : Type}

/-- Every result of an attempt has a property. -/
def Yields (attempt : Attempt σ ε α) (holds : α → Prop) : Prop :=
  ∀ state value after, attempt.run state = (.ok value, after) → holds value

/-- An attempt succeeds from every state, with a result that has a property. -/
def Attains (attempt : Attempt σ ε α) (holds : α → Prop) : Prop :=
  ∀ state, ∃ value after, attempt.run state = (.ok value, after) ∧ holds value

/-- A run with a result is a success with that result. -/
theorem run_eq_ok {attempt : Attempt σ ε α} {state : σ} {value : α}
    (found : (attempt.run state).1.toOption = some value) :
    attempt.run state = (.ok value, (attempt.run state).2) := by
  rcases reached : attempt.run state with ⟨_ | result, after⟩
  · rw [reached] at found
    cases found
  · rw [reached] at found
    have same : result = value := Option.some.inj found
    rw [same]

/-- A run whose errors are given another form. -/
theorem run_mapError (convert : ε → δ) (attempt : Attempt σ ε α) (state : σ) :
    (attempt.mapError convert).run state =
      match attempt.run state with
      | (.ok value, state) => (.ok value, state)
      | (.error error, state) => (.error (convert error), state) := rfl

/-- A success with a property yields it. -/
theorem yields_pure {holds : α → Prop} {value : α} (fact : holds value) :
    (pure value : Attempt σ ε α).Yields holds := by
  intro state found after run
  rw [run_pure] at run
  have same : value = found := Except.ok.inj (Prod.mk.inj run).1
  rw [← same]
  exact fact

/-- A failure yields whatever is asked for. -/
theorem yields_fail {holds : α → Prop} (error : ε) :
    (fail error : Attempt σ ε α).Yields holds := by
  intro state found after run
  rw [run_fail] at run
  cases (Prod.mk.inj run).1

/-- An attempt about which nothing is known. -/
theorem yields_any (attempt : Attempt σ ε α) : attempt.Yields fun _ => True :=
  fun _ _ _ _ => trivial

/-- What is yielded may be weakened. -/
theorem Yields.mono {attempt : Attempt σ ε α} {strong weak : α → Prop}
    (yields : attempt.Yields strong) (weaken : ∀ value, strong value → weak value) :
    attempt.Yields weak :=
  fun state value after run => weaken value (yields state value after run)

/-- Two things that are yielded may be taken together. -/
theorem Yields.and {attempt : Attempt σ ε α} {holds known : α → Prop}
    (yields : attempt.Yields holds) (others : attempt.Yields known) :
    attempt.Yields fun value => holds value ∧ known value :=
  fun state value after run => ⟨yields state value after run, others state value after run⟩

/-- What follows from each result of the first step is yielded by both steps. -/
theorem Yields.bind {first : Attempt σ ε α} {next : α → Attempt σ ε β} {middle : α → Prop}
    {holds : β → Prop} (start : first.Yields middle)
    (rest : ∀ value, middle value → (next value).Yields holds) :
    (first >>= next).Yields holds := by
  intro state found after run
  rw [run_bind] at run
  rcases reached : first.run state with ⟨_ | value, between⟩
  · rw [reached] at run
    cases (Prod.mk.inj run).1
  · rw [reached] at run
    have known : middle value := start state value between reached
    exact rest value known between found after run

/-- Steps that go on in the same way from all results that the first can have
are equal. -/
theorem Yields.bind_congr {first : Attempt σ ε α} {known : α → Prop}
    (start : first.Yields known) {next other : α → Attempt σ ε β}
    (same : ∀ value, known value → next value = other value) :
    first >>= next = first >>= other := by
  funext state
  show (first >>= next).run state = (first >>= other).run state
  rw [run_bind, run_bind]
  rcases reached : first.run state with ⟨error | value, between⟩
  · rfl
  · have fact := start state value between reached
    simp only [same value fact]

/-- A branch yields what it yields alone, where it is taken. -/
theorem yields_ite {condition : Prop} [Decidable condition] {yes no : Attempt σ ε α}
    {holds : α → Prop} (first : condition → yes.Yields holds)
    (second : ¬condition → no.Yields holds) : (if condition then yes else no).Yields holds := by
  by_cases taken : condition
  · rw [if_pos taken]
    exact first taken
  · rw [if_neg taken]
    exact second taken

/-- Giving errors another form does not change what is yielded. -/
theorem Yields.mapError {attempt : Attempt σ ε α} {holds : α → Prop} (convert : ε → δ)
    (yields : attempt.Yields holds) : (attempt.mapError convert).Yields holds := by
  intro state found after run
  rw [run_mapError] at run
  rcases reached : attempt.run state with ⟨_ | value, between⟩
  · rw [reached] at run
    cases (Prod.mk.inj run).1
  · rw [reached] at run
    have same : value = found := Except.ok.inj (Prod.mk.inj run).1
    rw [← same]
    exact yields state value between reached

/-- A success with a property attains it. -/
theorem attains_pure {holds : α → Prop} {value : α} (fact : holds value) :
    (pure value : Attempt σ ε α).Attains holds :=
  fun state => ⟨value, state, run_pure value state, fact⟩

/-- What is attained may be weakened. -/
theorem Attains.mono {attempt : Attempt σ ε α} {strong weak : α → Prop}
    (attains : attempt.Attains strong) (weaken : ∀ value, strong value → weak value) :
    attempt.Attains weak := by
  intro state
  obtain ⟨value, after, run, fact⟩ := attains state
  exact ⟨value, after, run, weaken value fact⟩

/-- What follows from each result of the first step is attained by both steps. -/
theorem Attains.bind {first : Attempt σ ε α} {next : α → Attempt σ ε β} {middle : α → Prop}
    {holds : β → Prop} (start : first.Attains middle)
    (rest : ∀ value, middle value → (next value).Attains holds) :
    (first >>= next).Attains holds := by
  intro state
  obtain ⟨value, between, reached, known⟩ := start state
  obtain ⟨found, after, run, fact⟩ := rest value known between
  refine ⟨found, after, ?_, fact⟩
  rw [run_bind, reached]
  exact run

/-- What is attained may be taken together with what is yielded. -/
theorem Attains.and {attempt : Attempt σ ε α} {holds known : α → Prop}
    (attains : attempt.Attains holds) (yields : attempt.Yields known) :
    attempt.Attains fun value => holds value ∧ known value := by
  intro state
  obtain ⟨value, after, run, fact⟩ := attains state
  exact ⟨value, after, run, fact, yields state value after run⟩

/-- Giving errors another form does not change what is attained. -/
theorem Attains.mapError {attempt : Attempt σ ε α} {holds : α → Prop} (convert : ε → δ)
    (attains : attempt.Attains holds) : (attempt.mapError convert).Attains holds := by
  intro state
  obtain ⟨value, after, reached, fact⟩ := attains state
  refine ⟨value, after, ?_, fact⟩
  rw [run_mapError, reached]

/-- What an application attains for two vectors it attains behind the check of their
lengths. -/
theorem attains_checkPair {R S : Type} {n : Nat}
    {apply : Vector R n → Vector R n → Attempt σ (Interrupted R n) (Vector R n × S)}
    {holds : Vector R n × S → Prop} {x y : Vector R n} (inner : (apply x y).Attains holds) :
    (match checkPair n x.toArray y.toArray with
      | .error error => fail (.operator error, y.toArray)
      | .ok (x, y) => do
        let result ← (apply x y).mapError fun e => (e.error, e.vector.toArray)
        pure (result.1.toArray, result.2) :
      Attempt σ (PreconditionerError R × Array R) (Array R × S)).Attains fun result =>
        ∃ value, result = (value.1.toArray, value.2) ∧ holds value := by
  rw [checkPair_eq_ok_iff.mpr ⟨rfl, rfl⟩]
  refine Attains.bind (inner.mapError _) ?_
  intro value fact
  exact attains_pure ⟨value, rfl, fact⟩

/-- What is attained is yielded: there is no other result. -/
theorem Attains.yields {attempt : Attempt σ ε α} {holds : α → Prop}
    (attains : attempt.Attains holds) : attempt.Yields holds := by
  intro state found after run
  obtain ⟨value, between, reached, fact⟩ := attains state
  rw [reached] at run
  have same : value = found := Except.ok.inj (Prod.mk.inj run).1
  rw [← same]
  exact fact

/-- Every error of an attempt has a property. -/
def FailsOnly (attempt : Attempt σ ε α) (holds : ε → Prop) : Prop :=
  ∀ state error after, attempt.run state = (.error error, after) → holds error

/-- A success is no failure. -/
theorem failsOnly_pure {holds : ε → Prop} (value : α) :
    (pure value : Attempt σ ε α).FailsOnly holds := by
  intro state error after run
  rw [run_pure] at run
  cases (Prod.mk.inj run).1

/-- A failure has the property of its error. -/
theorem failsOnly_fail {holds : ε → Prop} {error : ε} (fact : holds error) :
    (fail error : Attempt σ ε α).FailsOnly holds := by
  intro state found after run
  rw [run_fail] at run
  have same : error = found := Except.error.inj (Prod.mk.inj run).1
  rw [← same]
  exact fact

/-- Two steps fail as one of them does. -/
theorem FailsOnly.bind {first : Attempt σ ε α} {next : α → Attempt σ ε β} {holds : ε → Prop}
    (start : first.FailsOnly holds) (rest : ∀ value, (next value).FailsOnly holds) :
    (first >>= next).FailsOnly holds := by
  intro state error after run
  rw [run_bind] at run
  rcases reached : first.run state with ⟨found | value, between⟩
  · rw [reached] at run
    have same : found = error := Except.error.inj (Prod.mk.inj run).1
    rw [← same]
    exact start state found between reached
  · rw [reached] at run
    exact rest value between error after run

/-- A branch fails as it does alone. -/
theorem failsOnly_ite {condition : Prop} [Decidable condition] {yes no : Attempt σ ε α}
    {holds : ε → Prop} (first : yes.FailsOnly holds) (second : no.FailsOnly holds) :
    (if condition then yes else no).FailsOnly holds := by
  split
  · exact first
  · exact second

/-- Errors in another form have a property if the errors have what it comes from. -/
theorem FailsOnly.mapError {attempt : Attempt σ ε α} {known : ε → Prop} {holds : δ → Prop}
    {convert : ε → δ} (fails : attempt.FailsOnly known)
    (follows : ∀ error, known error → holds (convert error)) :
    (attempt.mapError convert).FailsOnly holds := by
  intro state found after run
  rw [run_mapError] at run
  rcases reached : attempt.run state with ⟨error | value, between⟩
  · rw [reached] at run
    have same : convert error = found := Except.error.inj (Prod.mk.inj run).1
    rw [← same]
    exact follows error (fails state error between reached)
  · rw [reached] at run
    cases (Prod.mk.inj run).1

/-- Behind the check of their lengths an application fails as it does for two
vectors, or because of a length. -/
theorem failsOnly_checkPair {R S : Type} {n : Nat}
    {apply : Vector R n → Vector R n → Attempt σ (Interrupted R n) (Vector R n × S)}
    (holds : PreconditionerError R → Prop) (x y : Array R)
    (lengths : ∀ error, holds (.operator error))
    (inner : ∀ v w, (apply v w).FailsOnly fun interrupted => holds interrupted.error) :
    (match checkPair n x y with
      | .error error => fail (.operator error, y)
      | .ok (x, y) => do
        let result ← (apply x y).mapError fun e => (e.error, e.vector.toArray)
        pure (result.1.toArray, result.2) :
      Attempt σ (PreconditionerError R × Array R) (Array R × S)).FailsOnly fun failure =>
        holds failure.1 := by
  split
  · exact failsOnly_fail (lengths _)
  · rename_i v w _
    have converted : ((apply v w).mapError fun e => (e.error, e.vector.toArray)).FailsOnly
        fun failure => holds failure.1 := (inner v w).mapError fun _ fact => fact
    exact converted.bind fun result => failsOnly_pure _

/-- An attempt about whose errors nothing is known. -/
theorem failsOnly_any (attempt : Attempt σ ε α) : attempt.FailsOnly fun _ => True :=
  fun _ _ _ _ => trivial

end HexSlab.Attempt

import HexSlab.Proofs.Attempts

/-!
# Runs that keep a record of their divisions

An algorithm that divides by an operation of its own can keep a record of what it divides
by, in the state of the run: the operation adds each divisor to the record. Nothing reads
the record, so a run that keeps it does what the run without it does. What is said of all
entries of the record is said of all divisions that the run reaches.
-/

namespace HexSlab.Attempt

variable {σ κ R ε δ α β : Type}

/-- An attempt with a record of divisions does what another one does without it, and
every divisor that it adds, under the name of its division, is one of some kind. -/
def Records (recorded : Attempt (σ × List (κ × R)) ε α) (plain : Attempt σ ε α)
    (expected : κ → R → Prop) : Prop :=
  ∀ state earlier, ∃ made,
    recorded.run (state, earlier) = ((plain.run state).1, (plain.run state).2, earlier ++ made) ∧
      ∀ division ∈ made, expected division.1 division.2

variable {expected : κ → R → Prop}

/-- Nothing is divided where nothing is done. -/
theorem records_pure (value : α) :
    (pure value : Attempt (σ × List (κ × R)) ε α).Records (pure value) expected :=
  fun _ earlier => ⟨[], by rw [List.append_nil]; rfl, List.forall_mem_nil _⟩

/-- Nothing is divided where only an error is raised. -/
theorem records_fail (error : ε) :
    (fail error : Attempt (σ × List (κ × R)) ε α).Records (fail error) expected :=
  fun _ earlier => ⟨[], by rw [List.append_nil]; rfl, List.forall_mem_nil _⟩

/-- An attempt that leaves the record alone. -/
theorem records_besides (attempt : Attempt σ ε α) :
    (attempt.besides : Attempt (σ × List (κ × R)) ε α).Records attempt expected :=
  fun _ earlier => ⟨[], by rw [List.append_nil]; rfl, List.forall_mem_nil _⟩

/-- What is said of the divisors may be weakened. -/
theorem Records.mono {recorded : Attempt (σ × List (κ × R)) ε α} {plain : Attempt σ ε α}
    (records : recorded.Records plain expected) {weak : κ → R → Prop}
    (weaken : ∀ place divisor, expected place divisor → weak place divisor) :
    recorded.Records plain weak := by
  intro state earlier
  obtain ⟨made, run, all⟩ := records state earlier
  exact ⟨made, run, fun division member => weaken _ _ (all division member)⟩

/-- The divisions of two steps come one after the other. The second step may rely on what
the first one yields. -/
theorem Records.bind {first : Attempt (σ × List (κ × R)) ε α} {plain : Attempt σ ε α}
    {next : α → Attempt (σ × List (κ × R)) ε β} {nextPlain : α → Attempt σ ε β}
    {known : α → Prop} (start : first.Records plain expected) (yields : plain.Yields known)
    (rest : ∀ value, known value → (next value).Records (nextPlain value) expected) :
    (first >>= next).Records (plain >>= nextPlain) expected := by
  intro state earlier
  obtain ⟨made, run, all⟩ := start state earlier
  rw [run_bind, run_bind, run]
  rcases reached : plain.run state with ⟨error | value, between⟩
  · exact ⟨made, rfl, all⟩
  · have fact := yields state value between reached
    obtain ⟨later, laterRun, laterAll⟩ := rest value fact between (earlier ++ made)
    rw [List.append_assoc] at laterRun
    exact ⟨made ++ later, laterRun, List.forall_mem_append.mpr ⟨all, laterAll⟩⟩

/-- Divisions for a value that is known without them. -/
theorem Records.bind_pure {first : Attempt (σ × List (κ × R)) ε α} {value : α}
    {next : α → Attempt (σ × List (κ × R)) ε β} {plain : Attempt σ ε β}
    (start : first.Records (pure value) expected) (rest : (next value).Records plain expected) :
    (first >>= next).Records plain expected := by
  have known : (pure value : Attempt σ ε α).Yields fun found => value = found :=
    yields_pure rfl
  have both : (first >>= next).Records ((pure value : Attempt σ ε α) >>= fun _ => plain)
      expected := by
    refine start.bind known ?_
    intro found same
    rw [← same]
    exact rest
  exact both

/-- Giving errors another form divides by nothing. -/
theorem Records.mapError {recorded : Attempt (σ × List (κ × R)) ε α} {plain : Attempt σ ε α}
    (records : recorded.Records plain expected) (convert : ε → δ) :
    (recorded.mapError convert).Records (plain.mapError convert) expected := by
  intro state earlier
  obtain ⟨made, run, all⟩ := records state earlier
  refine ⟨made, ?_, all⟩
  rw [run_mapError, run_mapError, run]
  rcases plain.run state with ⟨error | value, between⟩ <;> rfl

/-- Only one of two branches makes its divisions. -/
theorem records_ite {condition : Prop} [Decidable condition]
    {yes no : Attempt (σ × List (κ × R)) ε α} {yesPlain noPlain : Attempt σ ε α}
    (first : condition → yes.Records yesPlain expected)
    (second : ¬condition → no.Records noPlain expected) :
    (if condition then yes else no).Records (if condition then yesPlain else noPlain)
      expected := by
  by_cases taken : condition
  · rw [if_pos taken, if_pos taken]
    exact first taken
  · rw [if_neg taken, if_neg taken]
    exact second taken

/-- Add a divisor to the record. -/
def record (place : κ) (divisor : R) : Attempt (σ × List (κ × R)) ε Unit := fun state =>
  (.ok (), state.1, state.2 ++ [(place, divisor)])

/-- What is recorded is all that is added. -/
theorem records_record {place : κ} {divisor : R} (fact : expected place divisor) :
    (record place divisor : Attempt (σ × List (κ × R)) ε Unit).Records (pure ()) expected :=
  fun _ _ => ⟨[(place, divisor)], rfl, List.forall_mem_singleton.mpr fact⟩

/-- An attempt with a record attains what it attains without one. -/
theorem Records.attains {recorded : Attempt (σ × List (κ × R)) ε α} {plain : Attempt σ ε α}
    (records : recorded.Records plain expected) {holds : α → Prop}
    (attains : plain.Attains holds) : recorded.Attains holds := by
  rintro ⟨state, earlier⟩
  obtain ⟨value, after, run, fact⟩ := attains state
  obtain ⟨made, recordedRun, -⟩ := records state earlier
  rw [run] at recordedRun
  exact ⟨value, (after, earlier ++ made), recordedRun, fact⟩

/-- A run adds a division to its record, whatever state it starts from. -/
def Makes (recorded : Attempt (σ × List (κ × R)) ε α) (division : κ × R) : Prop :=
  ∀ state, division ∈ (recorded.run state).2.2

/-- A division of a later step is reached if the first step succeeds. -/
theorem Attains.makes {first : Attempt (σ × List (κ × R)) ε α}
    {next : α → Attempt (σ × List (κ × R)) ε β} {known : α → Prop} {division : κ × R}
    (start : first.Attains known)
    (rest : ∀ value, known value → (next value).Makes division) :
    (first >>= next).Makes division := by
  intro state
  obtain ⟨value, after, run, fact⟩ := start state
  rw [run_bind, run]
  exact rest value fact after

/-- A run takes no division back from its record. -/
def Keeps (recorded : Attempt (σ × List (κ × R)) ε α) : Prop :=
  ∀ state, ∀ division ∈ state.2, division ∈ (recorded.run state).2.2

/-- A success takes no division back. -/
theorem keeps_pure (value : α) : (pure value : Attempt (σ × List (κ × R)) ε α).Keeps :=
  fun _ _ member => member

/-- Neither does an attempt that only adds divisions. -/
theorem Records.keeps {recorded : Attempt (σ × List (κ × R)) ε α} {plain : Attempt σ ε α}
    (records : recorded.Records plain expected) : recorded.Keeps := by
  intro state division member
  obtain ⟨made, run, -⟩ := records state.1 state.2
  show division ∈ (recorded.run (state.1, state.2)).2.2
  rw [run]
  exact List.mem_append_left made member

/-- A division of the first step stays in the record. -/
theorem Makes.bind {first : Attempt (σ × List (κ × R)) ε α}
    {next : α → Attempt (σ × List (κ × R)) ε β} {division : κ × R}
    (made : first.Makes division) (kept : ∀ value, (next value).Keeps) :
    (first >>= next).Makes division := by
  intro state
  have member := made state
  rw [run_bind]
  generalize first.run state = outcome at member ⊢
  rcases outcome with ⟨error | value, between⟩
  · exact member
  · exact kept value between division member

/-- Giving errors another form takes no division back. -/
theorem Makes.mapError {recorded : Attempt (σ × List (κ × R)) ε α} {division : κ × R}
    (made : recorded.Makes division) (convert : ε → δ) :
    (recorded.mapError convert).Makes division := by
  intro state
  have member := made state
  rw [run_mapError]
  generalize recorded.run state = outcome at member ⊢
  rcases outcome with ⟨error | value, between⟩ <;> exact member

/-- A division that is made is as it is expected to be. -/
theorem Records.expected_of_makes {recorded : Attempt (σ × List (κ × R)) ε α}
    {plain : Attempt σ ε α} (records : recorded.Records plain expected) {division : κ × R}
    (made : recorded.Makes division) (state : σ) : expected division.1 division.2 := by
  obtain ⟨all, run, each⟩ := records state []
  have member := made (state, [])
  rw [run, List.nil_append] at member
  exact each division member

end HexSlab.Attempt

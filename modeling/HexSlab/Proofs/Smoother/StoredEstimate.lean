import HexSlab.Proofs.Smoother.ComputedSettings

/-!
# The stored estimate of the condition number

An estimate belongs to the inverted diagonal that it was made for. A smoother
keeps it beside that diagonal, but only a preparation drops both. So the estimate
outlives a diagonal that new parameters drop, or that another computation
replaces; every other call keeps the two together.
-/

namespace HexSlab.Chebyshev

section Calls

variable {σ R : Type} [Scalar R] {n : Nat}

/-- The estimate that a call makes, with the inverted diagonal that it is made
for. Only an estimate that succeeds makes one. -/
def estimate? (kit : SpectralKit R) (op : Operator σ R n) (call : Call R)
    (state : Chebyshev R n × σ) : Option (R × Vector R n) :=
  match call, state.1.inverseDiagonal? with
  | .estimateCondition iterations, some inverse =>
    let start := kit.start n op.comm.rank
    match (cgEstimate kit.extremes op inverse start iterations).run state.2 with
    | (.ok spectrum, _) => some (spectrum.2 / spectrum.1, inverse)
    | (.error _, _) => none
  | _, _ => none

/-- The last estimate that a sequence of calls makes. -/
def latestEstimate? (kit : SpectralKit R) (op : Operator σ R n) :
    Chebyshev R n × σ → List (Call R) → Option (R × Vector R n)
  | _, [] => none
  | state, call :: calls =>
    (latestEstimate? kit op (answer kit op call state).after calls).or
      (estimate? kit op call state)

/-- One call more makes the last estimate, if it makes one. -/
theorem latestEstimate?_concat (kit : SpectralKit R) (op : Operator σ R n)
    (start : Chebyshev R n × σ) (calls : List (Call R)) (call : Call R) :
    latestEstimate? kit op start (calls ++ [call]) =
      (estimate? kit op call (afterCalls (answer kit op) start calls)).or
        (latestEstimate? kit op start calls) := by
  induction calls generalizing start with
  | nil => exact Option.or_none.symm
  | cons earlier calls ih =>
    have rest := ih (answer kit op earlier start).after
    calc latestEstimate? kit op start (earlier :: calls ++ [call])
        = (latestEstimate? kit op (answer kit op earlier start).after (calls ++ [call])).or
            (estimate? kit op earlier start) := rfl
      _ = _ := by
        rw [rest, Option.or_assoc]
        rfl

/-- A smoother that keeps an estimate keeps the last one that was made, and the
inverted diagonal that it was made for. -/
def KeepsOwn (latest? : Option (R × Vector R n)) (smoother : Chebyshev R n) : Prop :=
  ∀ condition, smoother.condition = some condition →
    ∃ inverse, latest? = some (condition, inverse) ∧ smoother.inverseDiagonal? = some inverse

/-- After a sequence of calls the estimate belongs to the smoother. -/
def EstimateBelongs (kit : SpectralKit R) (op : Operator σ R n) (start : Chebyshev R n × σ)
    (calls : List (Call R)) : Prop :=
  KeepsOwn (latestEstimate? kit op start calls) (afterCalls (answer kit op) start calls).1

/-- A call that leaves no estimate without its diagonal: once an estimate was
made, lists of parameters are refused, and a computation that succeeds inverts
the diagonal to what is kept already. Nothing is asked of the other calls. -/
def LeavesEstimate (kit : SpectralKit R) (op : Operator σ R n) (call : Call R)
    (state : Chebyshev R n × σ) : Prop :=
  match call with
  | .setParameters list =>
    state.1.condition.isSome = true → (state.1.setParameters list).error?.isSome = true
  | .compute =>
    state.1.condition.isSome = true → (state.1.compute kit op state.2).1.error? = none →
      state.1.inverseDiagonal? = some (invertDiagonal op state.1.params.minDiagonal)
  | _ => True

omit [Scalar R] in
/-- What a smoother keeps is decided by the estimate and the diagonal that it
keeps. -/
theorem keepsOwn_congr {latest? : Option (R × Vector R n)} {before after : Chebyshev R n}
    (condition : after.condition = before.condition)
    (inverse : after.inverseDiagonal? = before.inverseDiagonal?) :
    KeepsOwn latest? after ↔ KeepsOwn latest? before := by
  unfold KeepsOwn
  rw [condition, inverse]

omit [Scalar R] in
/-- Without an estimate there is nothing to keep. -/
theorem keepsOwn_of_none {latest? : Option (R × Vector R n)} {smoother : Chebyshev R n}
    (none : smoother.condition = none) : KeepsOwn latest? smoother := by
  intro condition found
  rw [none] at found
  cases found

omit [Scalar R] in
/-- A smoother with an inverted diagonal was prepared. -/
theorem isPrepared_of_inverseDiagonal? {smoother : Chebyshev R n} {inverse : Vector R n}
    (held : smoother.inverseDiagonal? = some inverse) : smoother.isPrepared = true := by
  obtain ⟨params, phase, sizes, condition, stats⟩ := smoother
  cases phase with
  | fresh => cases held
  | prepared => rfl
  | computed inverse bounds => rfl

/-- Applying a smoother keeps its estimate and its diagonal. -/
theorem applyInverse_keeps (kit : SpectralKit R) (op : Operator σ R n) (x y : Array R)
    (state : Chebyshev R n × σ) :
    let after := (answer kit op (.applyInverse x y) state).after.1
    after.condition = state.1.condition ∧ after.inverseDiagonal? = state.1.inverseDiagonal? := by
  dsimp only
  rcases applyInverse_leaves kit op x y state with same | counted
  · rw [same]
    exact ⟨rfl, rfl⟩
  · rw [counted]
    exact ⟨rfl, rfl⟩

/-- A list of parameters keeps the estimate, and drops the diagonal if it is
accepted. -/
theorem setParameters_keeps (smoother : Chebyshev R n) (list : ParameterList R) :
    let outcome := smoother.setParameters list
    outcome.after.condition = smoother.condition ∧
      outcome.after.inverseDiagonal? =
        if outcome.error?.isSome then smoother.inverseDiagonal? else none := by
  unfold setParameters
  rcases (ChebyshevParams.update list).run smoother.params with ⟨error | _, params⟩
  · exact ⟨rfl, rfl⟩
  · obtain ⟨_, phase, _, _, _⟩ := smoother
    cases phase <;> exact ⟨rfl, rfl⟩

/-- The last step of a computation keeps the estimate, and the diagonal that it is
given if it succeeds. -/
theorem settle_keeps (smoother : Chebyshev R n) (inverse : Vector R n) :
    let outcome := smoother.settle inverse
    outcome.after.condition = smoother.condition ∧
      outcome.after.inverseDiagonal? =
        if outcome.error?.isSome then smoother.inverseDiagonal? else some inverse := by
  unfold settle
  rcases checkedBounds smoother.params with error | bounds <;> exact ⟨rfl, rfl⟩

/-- A computation of a smoother that was prepared keeps the estimate, and inverts
the diagonal anew if it succeeds. -/
theorem compute_keeps (kit : SpectralKit R) (op : Operator σ R n) (smoother : Chebyshev R n)
    (prepared : smoother.isPrepared = true) (state : σ) :
    let outcome := (smoother.compute kit op state).1
    outcome.after.condition = smoother.condition ∧
      outcome.after.inverseDiagonal? =
        if outcome.error?.isSome then smoother.inverseDiagonal?
        else some (invertDiagonal op smoother.params.minDiagonal) := by
  unfold compute
  rw [if_pos prepared]
  dsimp only
  rcases settingsError? smoother.params with _ | error
  · dsimp only
    rcases estimateSpectrum kit op (invertDiagonal op smoother.params.minDiagonal)
      smoother.params state with ⟨error | found, after⟩
    · exact ⟨rfl, rfl⟩
    · exact settle_keeps { smoother with params := found } _
  · exact ⟨rfl, rfl⟩

/-- A computation of a smoother that was not prepared has no estimate to keep. -/
theorem compute_condition_fresh (kit : SpectralKit R) (op : Operator σ R n)
    (smoother : Chebyshev R n) (fresh : smoother.isPrepared = false) (state : σ) :
    (smoother.compute kit op state).1.after.condition = none := by
  have begun : smoother.compute kit op state = (smoother.prepare op).compute kit op state := by
    unfold compute
    rw [fresh]
    rfl
  rw [begun]
  exact (compute_keeps kit op (smoother.prepare op) rfl state).1

/-- A call for an estimate keeps the diagonal; its estimate is stored if it
succeeds, and otherwise the one before stays. -/
theorem estimateCondition_keeps (kit : SpectralKit R) (op : Operator σ R n) (iterations : Nat)
    (state : Chebyshev R n × σ) :
    let call : Call R := .estimateCondition iterations
    let after := (answer kit op call state).after.1
    after.inverseDiagonal? = state.1.inverseDiagonal? ∧
      match estimate? kit op call state with
      | some found => after.condition = some found.1 ∧ after.inverseDiagonal? = some found.2
      | none => after.condition = state.1.condition := by
  obtain ⟨⟨params, phase, sizes, condition, stats⟩, inner⟩ := state
  rcases phase with _ | _ | ⟨inverse, bounds⟩
  · exact ⟨rfl, rfl⟩
  · exact ⟨rfl, rfl⟩
  · simp only [estimate?, answer, estimateCondition, inverseDiagonal?, Attempt.run]
    rcases cgEstimate kit.extremes op inverse (kit.start n op.comm.rank) iterations inner with
      ⟨error | spectrum, after⟩
    · exact ⟨rfl, rfl⟩
    · exact ⟨rfl, rfl, rfl⟩

/-- An estimate that is kept comes from the call, or from before it. -/
theorem condition_answer (kit : SpectralKit R) (op : Operator σ R n) (call : Call R)
    (state : Chebyshev R n × σ) {condition : R}
    (kept : (answer kit op call state).after.1.condition = some condition) :
    (∃ inverse, estimate? kit op call state = some (condition, inverse)) ∨
      estimate? kit op call state = none ∧ state.1.condition = some condition := by
  cases call with
  | setParameters list =>
    have same := (setParameters_keeps state.1 list).1
    exact .inr ⟨rfl, same.symm.trans kept⟩
  | prepare => cases kept
  | compute =>
    cases prepared : state.1.isPrepared with
    | true =>
      have same := (compute_keeps kit op state.1 prepared state.2).1
      exact .inr ⟨rfl, same.symm.trans kept⟩
    | false =>
      have none := compute_condition_fresh kit op state.1 prepared state.2
      have absurd := none.symm.trans kept
      cases absurd
  | applyInverse x y =>
    have same := (applyInverse_keeps kit op x y state).1
    exact .inr ⟨rfl, same.symm.trans kept⟩
  | estimateCondition iterations =>
    have keeps := (estimateCondition_keeps kit op iterations state).2
    rcases found : estimate? kit op (.estimateCondition iterations) state with _ | ⟨value, inverse⟩
    · rw [found] at keeps
      exact .inr ⟨rfl, keeps.symm.trans kept⟩
    · rw [found] at keeps
      have same : value = condition := Option.some.inj (keeps.1.symm.trans kept)
      rw [same]
      exact .inl ⟨inverse, rfl⟩

/-- After a list of parameters, the estimate of a smoother is its own still if there was
none or the list was refused. -/
theorem keepsOwn_setParameters_iff (smoother : Chebyshev R n) (list : ParameterList R)
    {latest? : Option (R × Vector R n)} (own : KeepsOwn latest? smoother) :
    KeepsOwn latest? (smoother.setParameters list).after ↔
      (smoother.condition.isSome = true →
        (smoother.setParameters list).error?.isSome = true) := by
  obtain ⟨condition, inverse⟩ := setParameters_keeps smoother list
  cases refused : (smoother.setParameters list).error?.isSome with
  | true =>
    rw [refused, if_pos rfl] at inverse
    exact iff_of_true ((keepsOwn_congr condition inverse).mpr own) fun _ => rfl
  | false =>
    rw [refused, if_neg Bool.false_ne_true] at inverse
    rcases stored : smoother.condition with _ | value
    · exact iff_of_true (keepsOwn_of_none (condition.trans stored)) fun some => some
    · refine iff_of_false (fun still => ?_) fun none => Bool.false_ne_true (none rfl)
      obtain ⟨diagonal, -, kept⟩ := still value (condition.trans stored)
      have absurd := inverse.symm.trans kept
      cases absurd

/-- After a computation, the estimate of a smoother is its own still if there was none, or
if the computation failed or inverted the diagonal to what was kept already. -/
theorem keepsOwn_compute_iff (kit : SpectralKit R) (op : Operator σ R n)
    (smoother : Chebyshev R n) (state : σ) {latest? : Option (R × Vector R n)}
    (own : KeepsOwn latest? smoother) :
    KeepsOwn latest? (smoother.compute kit op state).1.after ↔
      (smoother.condition.isSome = true → (smoother.compute kit op state).1.error? = none →
        smoother.inverseDiagonal? = some (invertDiagonal op smoother.params.minDiagonal)) := by
  rcases stored : smoother.condition with _ | value
  · have none : (smoother.compute kit op state).1.after.condition = none := by
      cases prepared : smoother.isPrepared with
      | true => exact (compute_keeps kit op smoother prepared state).1.trans stored
      | false => exact compute_condition_fresh kit op smoother prepared state
    exact iff_of_true (keepsOwn_of_none none) fun some => by cases some
  · obtain ⟨diagonal, latest, held⟩ := own value stored
    have prepared := isPrepared_of_inverseDiagonal? held
    obtain ⟨condition, inverse⟩ := compute_keeps kit op smoother prepared state
    cases failed : (smoother.compute kit op state).1.error? with
    | some error =>
      rw [failed, Option.isSome_some, if_pos rfl] at inverse
      refine iff_of_true ((keepsOwn_congr condition inverse).mpr own) fun _ accepted => ?_
      cases accepted
    | none =>
      rw [failed, Option.isSome_none, if_neg Bool.false_ne_true] at inverse
      constructor
      · intro still _ _
        obtain ⟨kept, again, now⟩ := still value (condition.trans stored)
        have made : (value, diagonal) = (value, kept) := Option.some.inj (latest.symm.trans again)
        rw [held, (Prod.mk.inj made).2, ← now, inverse]
      · intro same
        have unchanged := inverse.trans (same rfl rfl).symm
        exact (keepsOwn_congr condition unchanged).mpr own

/-- Of all calls on a smoother that keeps its own estimate, or none, exactly those
that leave no estimate without its diagonal leave such a smoother. -/
theorem keepsOwn_answer_iff (kit : SpectralKit R) (op : Operator σ R n) (call : Call R)
    (state : Chebyshev R n × σ) {latest? : Option (R × Vector R n)}
    (own : KeepsOwn latest? state.1) :
    KeepsOwn ((estimate? kit op call state).or latest?) (answer kit op call state).after.1 ↔
      LeavesEstimate kit op call state := by
  cases call with
  | setParameters list => exact keepsOwn_setParameters_iff state.1 list own
  | prepare => exact iff_of_true (keepsOwn_of_none rfl) trivial
  | compute => exact keepsOwn_compute_iff kit op state.1 state.2 own
  | applyInverse x y =>
    obtain ⟨condition, inverse⟩ := applyInverse_keeps kit op x y state
    exact iff_of_true ((keepsOwn_congr condition inverse).mpr own) trivial
  | estimateCondition iterations =>
    obtain ⟨inverse, keeps⟩ := estimateCondition_keeps kit op iterations state
    refine iff_of_true ?_ trivial
    rcases found : estimate? kit op (.estimateCondition iterations) state with _ | ⟨value, made⟩
    · rw [found] at keeps
      exact (keepsOwn_congr keeps inverse).mpr own
    · rw [found] at keeps
      intro condition kept
      have same : value = condition := Option.some.inj (keeps.1.symm.trans kept)
      rw [same]
      exact ⟨made, rfl, keeps.2⟩

/-- When the stored estimate belongs to the smoother. After every sequence of
calls, each succeeding or failing, an estimate that is kept is the last one that
was made. The diagonal that it was made for is the one that is kept, in every
state of the sequence, exactly if no call leaves an estimate without its
diagonal. -/
theorem estimate_belongs_iff (kit : SpectralKit R) (op : Operator σ R n) (state : σ)
    (params : ChebyshevParams R) (calls : List (Call R)) :
    let start : Chebyshev R n × σ := (.ofParams params, state)
    (∀ condition, (afterCalls (answer kit op) start calls).1.condition = some condition →
      ∃ inverse, latestEstimate? kit op start calls = some (condition, inverse)) ∧
    ((∀ earlier, earlier <+: calls → EstimateBelongs kit op start earlier) ↔
      EachCall (answer kit op) (LeavesEstimate kit op) start calls) := by
  intro start
  constructor
  · induction calls using List.reverseRecOn with
    | nil =>
      intro condition kept
      cases kept
    | append_singleton calls call ih =>
      intro condition kept
      rw [afterCalls_concat] at kept
      rw [latestEstimate?_concat]
      rcases condition_answer kit op call _ kept with ⟨inverse, made⟩ | ⟨none, before⟩
      · rw [made]
        exact ⟨inverse, rfl⟩
      · rw [none, Option.none_or]
        exact ih condition before
  · apply forall_prefix_iff
    · intro earlier call before
      unfold EstimateBelongs at before ⊢
      rw [latestEstimate?_concat, afterCalls_concat]
      exact keepsOwn_answer_iff kit op call _ before
    · exact keepsOwn_of_none rfl

end Calls

/-- A list that sets the bound of the diagonal to three. -/
def boundThree : ParameterList Rat := .ofList [(ChebyshevParams.minDiagonalKey, .double 3)]

/-- Two ways to leave an estimate without its diagonal: an accepted list drops the
diagonal, and the next computation keeps another one. -/
theorem estimate_outlives_diagonal :
    ¬ EstimateBelongs onesKit twoRows (.ofParams .default, ())
        [.compute, .estimateCondition 1, .setParameters boundThree] ∧
    ¬ EstimateBelongs onesKit twoRows (.ofParams .default, ())
        [.compute, .estimateCondition 1, .setParameters boundThree, .compute] := by
  refine ⟨fun belongs => ?_, fun belongs => ?_⟩
  · obtain ⟨inverse, -, kept⟩ := belongs 1 (by decide +kernel)
    have dropped : (afterCalls (answer onesKit twoRows) (.ofParams .default, ())
        [.compute, .estimateCondition 1, .setParameters boundThree]).1.inverseDiagonal? = none := by
      decide +kernel
    rw [dropped] at kept
    cases kept
  · obtain ⟨inverse, made, kept⟩ := belongs 1 (by decide +kernel)
    -- the estimate was made with the halves and quarters that the entries have as inverses
    have first : (latestEstimate? onesKit twoRows (.ofParams .default, ())
        [.compute, .estimateCondition 1, .setParameters boundThree, .compute]).map
          (fun estimate => Vec.entries estimate.2 0) = some (1 / 2) := by
      decide +kernel
    have second : ((afterCalls (answer onesKit twoRows) (.ofParams .default, ())
        [.compute, .estimateCondition 1, .setParameters boundThree,
          .compute]).1.inverseDiagonal?).map (fun inverse => Vec.entries inverse 0) = some 3 := by
      decide +kernel
    rw [made] at first
    rw [kept] at second
    have same := first.symm.trans second
    revert same
    decide +kernel

end HexSlab.Chebyshev

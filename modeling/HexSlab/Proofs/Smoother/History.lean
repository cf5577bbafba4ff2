import HexSlab.Proofs.Smoother.Calls
import HexSlab.Smoother.Error
import HexSlab.Smoother.Stats

/-!
# What the calls that were made decide

A preconditioner looks at its data and at its settings, but its phase and the
counts of its calls are decided by the calls that were made and by which of them
were accepted. What one call does to the phase, to the data and to the counts is
said once for every preconditioner; the rest is an induction on the history.
-/

namespace HexSlab

/-- What a call on a preconditioner asks for. -/
inductive Request where
  /-- Other settings. -/
  | setParameters
  /-- To be prepared for an operator. -/
  | prepare
  /-- To be computed. -/
  | compute
  /-- To be applied. -/
  | apply
  /-- An estimate of the condition number. -/
  | estimate
  deriving DecidableEq

/-- A call that was made. -/
structure CallRecord where
  /-- What it asked for. -/
  request : Request
  /-- Whether it succeeded. -/
  accepted : Bool
  deriving DecidableEq

namespace CallRecord

/-- The call leaves the preconditioner prepared, whether it succeeds or not. -/
@[simp] def prepares (record : CallRecord) : Bool :=
  record.request = .prepare ∨ record.request = .compute

/-- The call asks for another computation: the preconditioner was prepared again,
or its settings were replaced. -/
@[simp] def discards (record : CallRecord) : Bool :=
  record.request = .prepare ∨ record = ⟨.setParameters, true⟩

/-- A computation that succeeded. -/
@[simp] def computed : CallRecord := ⟨.compute, true⟩

/-- An application that succeeded. -/
@[simp] def applied : CallRecord := ⟨.apply, true⟩

end CallRecord

section Histories

variable {ε C S : Type}

/-- The record of a call. -/
def recordOf (answer : C → S → Outcome ε S) (request : C → Request) (call : C) (state : S) :
    CallRecord :=
  ⟨request call, (answer call state).error?.isNone⟩

/-- The records of a sequence of calls, oldest first. -/
def history (answer : C → S → Outcome ε S) (request : C → Request) : S → List C → List CallRecord
  | _, [] => []
  | state, call :: calls =>
    recordOf answer request call state :: history answer request (answer call state).after calls

/-- One call more. -/
theorem history_concat (answer : C → S → Outcome ε S) (request : C → Request) (start : S)
    (calls : List C) (call : C) :
    history answer request start (calls ++ [call]) =
      history answer request start calls ++
        [recordOf answer request call (afterCalls answer start calls)] := by
  induction calls generalizing start with
  | nil => rfl
  | cons earlier calls ih => exact congrArg (_ :: ·) (ih _)

end Histories

/-- In a history the last computation that succeeded was not discarded since. -/
def ComputedLast (past : List CallRecord) : Prop :=
  ∃ earlier later, past = earlier ++ CallRecord.computed :: later ∧
    ∀ record ∈ later, record.discards = false

/-- Nothing is computed before the first call. -/
theorem not_computedLast_nil : ¬ComputedLast [] := by
  rintro ⟨earlier, later, split, -⟩
  exact List.append_ne_nil_of_right_ne_nil earlier (List.cons_ne_nil _ later) split.symm

/-- After one call more, that call computed, or it did not discard what was
computed before. -/
theorem computedLast_concat_iff (past : List CallRecord) (record : CallRecord) :
    ComputedLast (past ++ [record]) ↔
      record = .computed ∨ ComputedLast past ∧ record.discards = false := by
  constructor
  · rintro ⟨earlier, later, split, kept⟩
    rcases List.eq_nil_or_concat later with rfl | ⟨between, last, rfl⟩
    · exact .inl (List.cons.inj (List.append_inj' split rfl).2).1
    · rw [List.concat_eq_append] at split kept
      rw [← List.cons_append, ← List.append_assoc] at split
      obtain ⟨before, same⟩ := List.append_inj' split rfl
      have whole : record = last := (List.cons.inj same).1
      refine .inr ⟨⟨earlier, between, before, fun other member => ?_⟩, ?_⟩
      · exact kept other (List.mem_append_left [last] member)
      · rw [whole]
        exact kept last (List.mem_append_right between List.mem_cons_self)
  · rintro (rfl | ⟨⟨earlier, later, split, kept⟩, stays⟩)
    · exact ⟨past, [], rfl, fun _ member => absurd member List.not_mem_nil⟩
    · refine ⟨earlier, later ++ [record], ?_, fun other member => ?_⟩
      · rw [split, List.append_assoc, List.cons_append]
      · rcases List.mem_append.mp member with old | new
        · exact kept other old
        · rw [List.mem_singleton.mp new]
          exact stays

/-- The preparations in a history: one for each call that prepares, and one more
if the first call that prepares or computes is a computation. -/
def preparations (past : List CallRecord) : Nat :=
  past.countP (fun record => record.request = .prepare) +
    if (past.find? CallRecord.prepares).map CallRecord.request = some .compute then 1 else 0

/-- One call more is a preparation if it prepares, or computes before any other
call did either. -/
theorem preparations_concat (past : List CallRecord) (record : CallRecord) :
    preparations (past ++ [record]) = preparations past +
      if record.request = .prepare ∨
        record.request = .compute ∧ past.any CallRecord.prepares = false then 1 else 0 := by
  unfold preparations
  rw [List.countP_append, List.countP_singleton, List.find?_append]
  rcases found : past.find? CallRecord.prepares with _ | first
  · have none : past.any CallRecord.prepares = false := by
      rw [List.any_eq_false]
      exact List.find?_eq_none.mp found
    rw [none, Option.none_or, List.find?_singleton]
    obtain ⟨request, accepted⟩ := record
    cases request <;> simp [CallRecord.prepares]
  · have some : past.any CallRecord.prepares = true := by
      rw [List.any_eq_true]
      exact ⟨first, List.mem_of_find?_eq_some found, List.find?_some found⟩
    rw [some, Option.some_or]
    simp only [Bool.true_eq_false, and_false, or_false, decide_eq_true_eq]
    omega

/-- Where a preconditioner keeps its phase, its data and its statistics. -/
structure PhaseView (S K : Type) where
  /-- It was prepared. -/
  isPrepared : S → Bool
  /-- It can be applied. -/
  isComputed : S → Bool
  /-- The data kept of a computation. -/
  kept? : S → Option K
  /-- The statistics. -/
  stats : S → PhaseStats

namespace PhaseView

variable {ε C S K : Type}

/-- What a call with a record may do. -/
structure Follows (view : PhaseView S K) (before after : S) (record : CallRecord) : Prop where
  /-- The preconditioner is prepared by a call that prepares it, and stays so. -/
  isPrepared : view.isPrepared after = (view.isPrepared before || record.prepares)
  /-- It is computed by a call that computes it, and stays so until it is discarded. -/
  isComputed : view.isComputed after =
    (decide (record = .computed) || view.isComputed before && !record.discards)
  /-- A call that fails leaves the data as it was. -/
  kept : record.accepted = false → view.kept? after = view.kept? before
  /-- Only a computation that succeeds enters the statistics of computations. -/
  computeStats : record ≠ .computed → (view.stats after).compute = (view.stats before).compute
  /-- It is counted. -/
  computeCalls : record = .computed →
    (view.stats after).compute.calls = (view.stats before).compute.calls + 1
  /-- Only an application that succeeds enters the statistics of applications. -/
  applyStats : record ≠ .applied → (view.stats after).apply = (view.stats before).apply
  /-- It is counted. -/
  applyCalls : record = .applied →
    (view.stats after).apply.calls = (view.stats before).apply.calls + 1
  /-- A call that prepares is counted, and so is a computation that has to prepare. -/
  prepareCalls : (view.stats after).prepare.calls = (view.stats before).prepare.calls +
    if record.request = .prepare ∨ record.request = .compute ∧ view.isPrepared before = false
    then 1 else 0

/-- The statistics before a computation, which prepares what was not prepared. -/
def preparedStats (view : PhaseView S K) (before : S) : PhaseStats :=
  if view.isPrepared before then view.stats before
  else { view.stats before with prepare := (view.stats before).prepare.record 0.0 }

/-- What the calls of a preconditioner do. -/
inductive Effect (view : PhaseView S K) (before after : S) : CallRecord → Prop
  /-- Settings were replaced: what was computed has to be computed again. -/
  | replaced (isPrepared : view.isPrepared after = view.isPrepared before)
      (isComputed : view.isComputed after = false) (stats : view.stats after = view.stats before) :
      Effect view before after ⟨.setParameters, true⟩
  /-- The preconditioner was prepared. -/
  | prepared (isPrepared : view.isPrepared after = true)
      (isComputed : view.isComputed after = false)
      (stats : view.stats after =
        { view.stats before with prepare := (view.stats before).prepare.record 0.0 }) :
      Effect view before after ⟨.prepare, true⟩
  /-- It was computed, and prepared first if that was not done. -/
  | computed (flops : Float) (isPrepared : view.isPrepared after = true)
      (isComputed : view.isComputed after = true)
      (stats : view.stats after =
        { view.preparedStats before with
          compute := (view.preparedStats before).compute.record flops }) :
      Effect view before after ⟨.compute, true⟩
  /-- It was prepared if that was not done, and could not be computed. -/
  | refused (isPrepared : view.isPrepared after = true)
      (isComputed : view.isComputed after = view.isComputed before)
      (kept : view.kept? after = view.kept? before)
      (stats : view.stats after = view.preparedStats before) :
      Effect view before after ⟨.compute, false⟩
  /-- It was applied. -/
  | applied (flops : Float) (isPrepared : view.isPrepared after = view.isPrepared before)
      (isComputed : view.isComputed after = view.isComputed before)
      (stats : view.stats after =
        { view.stats before with apply := (view.stats before).apply.record flops }) :
      Effect view before after ⟨.apply, true⟩
  /-- Another call failed, or estimated something. -/
  | unchanged (record : CallRecord) (quiet : record.prepares = false)
      (failed : record.accepted = true → record.request = .estimate)
      (isPrepared : view.isPrepared after = view.isPrepared before)
      (isComputed : view.isComputed after = view.isComputed before)
      (kept : view.kept? after = view.kept? before)
      (stats : view.stats after = view.stats before) : Effect view before after record

/-- Phase, data and statistics after a sequence of calls are decided by the calls
that were made and by which of them succeeded. -/
structure DecidedByHistory (view : PhaseView S K) (answer : C → S → Outcome ε S)
    (request : C → Request) (start : S) (calls : List C) : Prop where
  /-- The preconditioner is prepared if it was asked to prepare or to compute,
  whether the computation succeeded or not. -/
  isPrepared : view.isPrepared (afterCalls answer start calls) = true ↔
    ∃ record ∈ history answer request start calls,
      record.request = .prepare ∨ record.request = .compute
  /-- It is computed if a computation succeeded, and after it no call prepared it
  again and no list of parameters was accepted. -/
  isComputed : view.isComputed (afterCalls answer start calls) = true ↔
    ComputedLast (history answer request start calls)
  /-- A further call that fails leaves the data and the statistics of computations
  and applications as they were. -/
  refused : ∀ call,
    let reached := afterCalls answer start calls
    (answer call reached).error?.isSome = true →
      view.kept? (answer call reached).after = view.kept? reached ∧
        (view.stats (answer call reached).after).compute = (view.stats reached).compute ∧
        (view.stats (answer call reached).after).apply = (view.stats reached).apply
  /-- Computations that succeeded are counted. -/
  computeCalls : (view.stats (afterCalls answer start calls)).compute.calls =
    (history answer request start calls).count ⟨.compute, true⟩
  /-- Applications that succeeded are counted. -/
  applyCalls : (view.stats (afterCalls answer start calls)).apply.calls =
    (history answer request start calls).count ⟨.apply, true⟩
  /-- Calls that prepare are counted, and one more if the first call that prepares
  or computes is a computation. -/
  prepareCalls : (view.stats (afterCalls answer start calls)).prepare.calls =
    preparations (history answer request start calls)

variable {view : PhaseView S K} {answer : C → S → Outcome ε S} {request : C → Request} {start : S}

/-- Preparing what was not prepared enters no other statistics. -/
@[simp] theorem preparedStats_compute (view : PhaseView S K) (before : S) :
    (view.preparedStats before).compute = (view.stats before).compute := by
  unfold preparedStats
  split <;> rfl

/-- Nor those of applications. -/
@[simp] theorem preparedStats_apply (view : PhaseView S K) (before : S) :
    (view.preparedStats before).apply = (view.stats before).apply := by
  unfold preparedStats
  split <;> rfl

/-- It is counted if it was needed. -/
@[simp] theorem preparedStats_prepare_calls (view : PhaseView S K) (before : S) :
    (view.preparedStats before).prepare.calls =
      (view.stats before).prepare.calls + if view.isPrepared before = false then 1 else 0 := by
  unfold preparedStats
  cases view.isPrepared before <;> rfl

/-- A call with one of the effects does what its record says. -/
theorem Effect.follows {before after : S} {record : CallRecord}
    (effect : view.Effect before after record) : view.Follows before after record := by
  cases effect with
  | replaced isPrepared isComputed stats => constructor <;> simp [isPrepared, isComputed, stats]
  | prepared isPrepared isComputed stats => constructor <;> simp [isPrepared, isComputed, stats]
  | computed flops isPrepared isComputed stats =>
    constructor <;> simp [isPrepared, isComputed, stats]
  | refused isPrepared isComputed kept stats =>
    constructor <;> simp [isPrepared, isComputed, kept, stats]
  | applied flops isPrepared isComputed stats =>
    constructor <;> simp [isPrepared, isComputed, stats]
  | unchanged record quiet failed isPrepared isComputed kept stats =>
    have unprepared : record.request ≠ .prepare ∧ record.request ≠ .compute := by
      simpa using quiet
    have stays : record.discards = false := by
      obtain ⟨request, accepted⟩ := record
      cases accepted <;> simp_all
    have uncounted : record ≠ .computed ∧ record ≠ .applied := by
      obtain ⟨request, accepted⟩ := record
      cases accepted <;> simp_all
    obtain ⟨uncomputed, unapplied⟩ := uncounted
    constructor <;> simp_all

/-- The preconditioner is prepared if one of the calls prepares. -/
theorem isPrepared_afterCalls
    (step : ∀ call state,
      view.Follows state (answer call state).after (recordOf answer request call state))
    (fresh : view.isPrepared start = false) (calls : List C) :
    view.isPrepared (afterCalls answer start calls) =
      (history answer request start calls).any CallRecord.prepares := by
  induction calls using List.reverseRecOn with
  | nil => exact fresh
  | append_singleton calls call ih =>
    rw [afterCalls_concat, (step call _).isPrepared, ih, history_concat, List.any_append,
      List.any_cons, List.any_nil, Bool.or_false]

/-- It is computed if the last computation that succeeded was not discarded. -/
theorem isComputed_afterCalls_iff
    (step : ∀ call state,
      view.Follows state (answer call state).after (recordOf answer request call state))
    (fresh : view.isComputed start = false) (calls : List C) :
    view.isComputed (afterCalls answer start calls) = true ↔
      ComputedLast (history answer request start calls) := by
  induction calls using List.reverseRecOn with
  | nil => exact iff_of_false (ne_true_of_eq_false fresh) not_computedLast_nil
  | append_singleton calls call ih =>
    rw [afterCalls_concat, (step call _).isComputed, history_concat, computedLast_concat_iff, ← ih]
    simp only [Bool.or_eq_true, Bool.and_eq_true, decide_eq_true_eq, Bool.not_eq_true']

/-- A statistic that only calls with one record enter counts these. -/
theorem calls_afterCalls (timer : S → PhaseTimer) (counted : CallRecord)
    (others : ∀ call state, recordOf answer request call state ≠ counted →
      timer (answer call state).after = timer state)
    (enters : ∀ call state, recordOf answer request call state = counted →
      (timer (answer call state).after).calls = (timer state).calls + 1)
    (fresh : (timer start).calls = 0) (calls : List C) :
    (timer (afterCalls answer start calls)).calls =
      (history answer request start calls).count counted := by
  induction calls using List.reverseRecOn with
  | nil => exact fresh
  | append_singleton calls call ih =>
    rw [afterCalls_concat, history_concat, List.count_append, ← ih]
    by_cases same : recordOf answer request call (afterCalls answer start calls) = counted
    · rw [enters call _ same, same, List.count_singleton_self]
    · rw [others call _ same, List.count_singleton, beq_eq_false_iff_ne.mpr same]
      rfl

/-- Preparations are counted, with the one of a first computation. -/
theorem prepareCalls_afterCalls
    (step : ∀ call state,
      view.Follows state (answer call state).after (recordOf answer request call state))
    (fresh : view.isPrepared start = false) (none : (view.stats start).prepare.calls = 0)
    (calls : List C) :
    (view.stats (afterCalls answer start calls)).prepare.calls =
      preparations (history answer request start calls) := by
  induction calls using List.reverseRecOn with
  | nil => exact none
  | append_singleton calls call ih =>
    have prepared := isPrepared_afterCalls step fresh calls
    rw [afterCalls_concat, (step call _).prepareCalls, prepared, ih, history_concat,
      preparations_concat]

/-- If every call does what its record says, then everything is decided by the
history. -/
theorem decidedByHistory
    (step : ∀ call state,
      view.Follows state (answer call state).after (recordOf answer request call state))
    (unprepared : view.isPrepared start = false) (uncomputed : view.isComputed start = false)
    (unused : view.stats start = .zero) (calls : List C) :
    view.DecidedByHistory answer request start calls where
  isPrepared := by
    rw [isPrepared_afterCalls step unprepared, List.any_eq_true]
    simp only [CallRecord.prepares, decide_eq_true_eq]
  isComputed := isComputed_afterCalls_iff step uncomputed calls
  refused := by
    intro call reached failed
    have follows := step call reached
    have refused : (recordOf answer request call reached).accepted = false := by
      show (answer call reached).error?.isNone = false
      rw [Option.isNone_eq_false_iff]
      exact failed
    refine ⟨follows.kept refused, follows.computeStats ?_, follows.applyStats ?_⟩
    · intro same
      rw [same] at refused
      cases refused
    · intro same
      rw [same] at refused
      cases refused
  computeCalls :=
    calls_afterCalls (fun state => (view.stats state).compute) .computed
      (fun call state => (step call state).computeStats)
      (fun call state => (step call state).computeCalls) (by rw [unused]; rfl) calls
  applyCalls :=
    calls_afterCalls (fun state => (view.stats state).apply) .applied
      (fun call state => (step call state).applyStats)
      (fun call state => (step call state).applyCalls) (by rw [unused]; rfl) calls
  prepareCalls := prepareCalls_afterCalls step unprepared (by rw [unused]; rfl) calls

end PhaseView

end HexSlab

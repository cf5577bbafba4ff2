import HexSlab.Smoother.Outcome
import Mathlib.Data.List.Induction

/-!
# Calls that may fail, one after the other

A preconditioner is set up and used by a sequence of calls. Each call leaves a
state behind, whether it succeeds or not, and the next call goes on from there.
A property that every state has is therefore a matter of single calls: of what
each of them may do to the settings and to the data kept of a computation.
-/

namespace HexSlab

section Sequences

variable {ε C S : Type}

/-- The state that a sequence of calls leads to. -/
def afterCalls (answer : C → S → Outcome ε S) (start : S) (calls : List C) : S :=
  calls.foldl (fun state call => (answer call state).after) start

/-- One call more. -/
theorem afterCalls_concat (answer : C → S → Outcome ε S) (start : S) (calls : List C)
    (call : C) :
    afterCalls answer start (calls ++ [call]) =
      (answer call (afterCalls answer start calls)).after := by
  unfold afterCalls
  rw [List.foldl_append, List.foldl_cons, List.foldl_nil]

/-- Every state of a sequence of calls has a property, the first and the last
one included. -/
def HoldsThroughout (answer : C → S → Outcome ε S) (holds : S → Prop) (start : S)
    (calls : List C) : Prop :=
  ∀ earlier, earlier <+: calls → holds (afterCalls answer start earlier)

/-- Every call of a sequence is allowed in the state that it meets. -/
def EachCall (answer : C → S → Outcome ε S) (allowed : C → S → Prop) (start : S)
    (calls : List C) : Prop :=
  ∀ earlier call, earlier ++ [call] <+: calls → allowed call (afterCalls answer start earlier)

/-- If the calls that keep a property of the sequence are the allowed ones, then
every earlier sequence has it as soon as the empty one does and each call is
allowed, and only then. -/
theorem forall_prefix_iff {answer : C → S → Outcome ε S} {holds : List C → Prop}
    {allowed : C → S → Prop} {start : S}
    (step : ∀ earlier call, holds earlier →
      (holds (earlier ++ [call]) ↔ allowed call (afterCalls answer start earlier)))
    (first : holds []) (calls : List C) :
    (∀ earlier, earlier <+: calls → holds earlier) ↔ EachCall answer allowed start calls := by
  constructor
  · intro throughout earlier call part
    have before : holds earlier :=
      throughout earlier ((List.prefix_append earlier [call]).trans part)
    have after : holds (earlier ++ [call]) := throughout (earlier ++ [call]) part
    exact (step earlier call before).mp after
  · intro each earlier
    -- the induction takes the calls off at the end, where the state is known
    induction earlier using List.reverseRecOn with
    | nil => exact fun _ => first
    | append_singleton earlier call ih =>
      intro part
      have before : holds earlier := ih ((List.prefix_append earlier [call]).trans part)
      exact (step earlier call before).mpr (each earlier call part)

/-- If the calls that keep a property of the state are the allowed ones, then
every state has it as soon as the first one does and each call is allowed, and
only then. -/
theorem holdsThroughout_iff {answer : C → S → Outcome ε S} {holds : S → Prop}
    {allowed : C → S → Prop} {start : S}
    (step : ∀ call state, holds state → (holds (answer call state).after ↔ allowed call state))
    (first : holds start) (calls : List C) :
    HoldsThroughout answer holds start calls ↔ EachCall answer allowed start calls := by
  apply forall_prefix_iff _ first
  intro earlier call before
  rw [afterCalls_concat]
  exact step call _ before

/-- A call that leaves the state of the run beside what it was made on. -/
def Outcome.beside {σ : Type} (outcome : Outcome ε S) (state : σ) : Outcome ε (S × σ) :=
  ⟨(outcome.after, state), outcome.error?, outcome.journal⟩

end Sequences

/-- Where a preconditioner has its settings and the data of its last
computation, and what a computation makes of settings. -/
structure SetupView (S P K : Type) where
  /-- The settings. -/
  params : S → P
  /-- The data kept, once computed. -/
  kept? : S → Option K
  /-- Settings that can be computed with. -/
  usable : P → Prop
  /-- The data that settings ask for. -/
  data : P → K

namespace SetupView

variable {ε S P K : Type} (view : SetupView S P K)

/-- What is kept is what the settings ask for. -/
def Matches (s : S) : Prop :=
  ∀ kept, view.kept? s = some kept → view.usable (view.params s) ∧ kept = view.data (view.params s)

/-- New settings that can be computed with, to the data that the old ones ask
for. -/
def MayReplace (old new : P) : Prop := view.usable new ∧ view.data new = view.data old

/-- Nothing changes where settings and data stay as they are. -/
theorem Matches.of_eq {view : SetupView S P K} {before after : S} (matched : view.Matches before)
    (params : view.params after = view.params before)
    (kept : view.kept? after = view.kept? before) : view.Matches after := by
  intro data found
  rw [params]
  exact matched data (kept ▸ found)

/-- What a call may do to the settings and to the data kept. -/
inductive Effect (before after : S) (error? : Option ε) : Prop
  /-- Nothing is kept any more, if the call succeeded. -/
  | dropped (empty : view.kept? after = none)
      (accepted : (view.kept? before).isSome = true → error? = none)
  /-- The data was computed from the settings. -/
  | computed (accepted : error? = none) (usable : view.usable (view.params after))
      (fresh : view.kept? after = some (view.data (view.params after)))
  /-- Neither settings nor data changed. -/
  | unchanged (params : view.params after = view.params before)
      (kept : view.kept? after = view.kept? before)
  /-- The call failed after it changed settings, and the data is still that of
  the settings before. -/
  | outdated (failed : error?.isSome = true) (kept : view.kept? after = view.kept? before)

variable {view}

/-- A call keeps settings and data in step unless it fails and leaves settings
that may not replace those of the data. -/
theorem Effect.matches_iff {before after : S} {error? : Option ε}
    (effect : view.Effect before after error?) (matched : view.Matches before) :
    view.Matches after ↔
      ((view.kept? before).isSome = true → error?.isSome = true →
        view.MayReplace (view.params before) (view.params after)) := by
  cases effect with
  | dropped empty accepted =>
    constructor
    · intro _ held failed
      rw [accepted held] at failed
      cases failed
    · intro _ kept found
      rw [empty] at found
      cases found
  | computed accepted usable fresh =>
    constructor
    · intro _ _ failed
      rw [accepted] at failed
      cases failed
    · intro _ kept found
      rw [fresh] at found
      exact ⟨usable, (Option.some.inj found).symm⟩
  | unchanged params kept =>
    constructor
    · intro _ held _
      obtain ⟨data, found⟩ := Option.isSome_iff_exists.mp held
      rw [params]
      exact ⟨(matched data found).1, rfl⟩
    · exact fun _ => matched.of_eq params kept
  | outdated failed kept =>
    constructor
    · intro still held _
      obtain ⟨data, found⟩ := Option.isSome_iff_exists.mp held
      obtain ⟨usable, same⟩ := still data (kept.trans found)
      exact ⟨usable, same.symm.trans (matched data found).2⟩
    · intro replaces data found
      have held : view.kept? before = some data := kept.symm.trans found
      obtain ⟨usable, same⟩ := replaces (Option.isSome_iff_exists.mpr ⟨data, held⟩) failed
      exact ⟨usable, (matched data held).2.trans same.symm⟩

end SetupView

end HexSlab

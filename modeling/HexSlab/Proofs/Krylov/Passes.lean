import HexSlab.Proofs.CountedCalls
import HexSlab.Proofs.Krylov.PlainDivision

/-!
# Passes of a solve with minimal residuals

A solve repeats one pass, with no bound on how often: it measures the residual,
accepts the solution or takes the steps of a cycle, and goes on from the corrected
solution. The pass is stated here with the total of the steps counted upwards.
Every pass that does not end the solve has taken a step, whatever the numbers are
and however their comparisons turn out, and no pass takes more steps than are
left. So the passes come to an end, and it is the end that the solve has.
-/

namespace HexSlab

namespace MinimalResiduals

variable {σ R : Type} [Scalar R] {n : Nat}

/-- What a pass leads to. -/
inductive Pass (R : Type) (n : Nat) where
  /-- The solution is accepted, or no step is left. -/
  | accepted (solution : Solution R n)
  /-- The next pass begins from a corrected solution, after a total of steps. -/
  | again (total : Nat) (x : Vector R n)

/-- A step after which its pass takes no other: the residual seems small enough,
the basis cannot be continued, or the total of steps has reached its limit. -/
def Step.endsPass (system : LinearSystem σ R n) (total : Nat) (taken : Step R n) : Bool :=
  decide (Scalar.abs taken.cycle.last / system.bNorm ≤ system.tolerance) || taken.next == 0 ||
    decide (system.maxIterations ≤ total)

/-- The steps of a pass, at most a number of them, with the total of all steps. -/
def passSteps (system : LinearSystem σ R n) (restart : Nat) :
    Nat → Nat → Cycle R n → Solving σ R n (Nat × Cycle R n)
  | 0, total, cycle => pure (total, cycle)
  | left + 1, total, cycle => do
    let taken ← step system (.gmres restart) (total + 1) cycle
    if taken.endsPass system (total + 1) then pure (total + 1, taken.cycle)
    else passSteps system restart left (total + 1) taken.extend

/-- A pass from a solution after a total of steps. -/
def pass (system : LinearSystem σ R n) (restart total : Nat) (x : Vector R n) :
    Solving σ R n (Pass R n) := do
  let r ← system.residual x
  let norm := system.op.comm.norm r
  let residual := norm / system.bNorm
  if residual ≤ system.tolerance ∨ system.maxIterations ≤ total then
    pure (.accepted ⟨x, system.status total residual⟩)
  else do
    let ended ← passSteps system restart restart total (.start x r norm)
    pure (.again ended.1 ended.2.finish)

/-- Passes are repeated from a solution and a total of steps until one of them
accepts or fails. They are counted, and the rules set no bound on their number. -/
inductive Ends (system : LinearSystem σ R n) (restart : Nat) :
    Nat → Nat → Vector R n → σ → Except (Halt R n) (Solution R n) × σ → Prop
  /-- A pass accepts its solution. -/
  | accepted {total : Nat} {x : Vector R n} {state after : σ} {solution : Solution R n}
      (run : (pass system restart total x).run state = (.ok (.accepted solution), after)) :
      Ends system restart 1 total x state (.ok solution, after)
  /-- A pass fails. -/
  | failed {total : Nat} {x : Vector R n} {state after : σ} {halt : Halt R n}
      (run : (pass system restart total x).run state = (.error halt, after)) :
      Ends system restart 1 total x state (.error halt, after)
  /-- A pass leads to another one. -/
  | again {passes total next : Nat} {x moved : Vector R n} {state between : σ}
      {outcome : Except (Halt R n) (Solution R n) × σ}
      (run : (pass system restart total x).run state = (.ok (.again next moved), between))
      (rest : Ends system restart passes next moved between outcome) :
      Ends system restart (passes + 1) total x state outcome

/-- The rest of a solve after a pass. -/
def Pass.resume (system : LinearSystem σ R n) (restart : Nat) :
    Pass R n → Solving σ R n (Solution R n)
  | .accepted solution => pure solution
  | .again total x =>
    let remaining := system.maxIterations - total
    beginCycle system remaining (advance system restart remaining) x

/-- A step adds a column to its cycle. -/
theorem step_yields_columns (system : LinearSystem σ R n) (method : KrylovMethod)
    (iteration : Nat) (cycle : Cycle R n) :
    (step system method iteration cycle).Yields fun taken =>
      taken.cycle.columns.length = cycle.columns.length + 1 := by
  rw [step_eq]
  refine (Attempt.yields_any _).bind fun z _ => ?_
  refine (Attempt.yields_any _).bind fun image _ => ?_
  dsimp only
  split
  · exact Attempt.yields_fail _
  · have grown (column : List R) :
        (cycle.columns ++ [column]).length = cycle.columns.length + 1 := by
      rw [List.length_append, List.length_singleton]
    exact Attempt.yields_pure (grown _)

/-- A step that does not end its pass leaves steps to take. -/
theorem Step.lt_of_goesOn (system : LinearSystem σ R n) {total : Nat} {taken : Step R n}
    (goesOn : ¬taken.endsPass system total = true) : total < system.maxIterations := by
  refine Nat.lt_of_not_le fun reached => goesOn ?_
  rw [endsPass, decide_eq_true reached, Bool.or_true]

/-- The last step of a cycle is the last of its pass: it ends the pass, or is the
last that the pass may take. -/
theorem Step.isLast_eq (system : LinearSystem σ R n) (restart : Nat) {total remaining : Nat}
    (count : total + remaining = system.maxIterations) (taken : Step R n) :
    taken.isLast system restart remaining =
      (taken.endsPass system total || decide (restart ≤ taken.cycle.columns.length)) := by
  have none : (remaining == 0) = decide (system.maxIterations ≤ total) := by
    rw [Bool.eq_iff_iff, beq_iff_eq, decide_eq_true_eq]
    omega
  rw [isLast, endsPass, none]

/-- After a step a solve goes on as the pass does and then resumes. -/
theorem afterStep_eq (system : LinearSystem σ R n) {restart left total remaining : Nat}
    {taken : Step R n} (size : taken.cycle.columns.length + left = restart)
    (count : total + remaining = system.maxIterations) :
    (if taken.isLast system restart remaining then
        beginCycle system remaining (advance system restart remaining) taken.cycle.finish
      else advance system restart remaining taken.extend) =
      (if taken.endsPass system total then pure (total, taken.cycle)
        else passSteps system restart left total taken.extend) >>= fun ended =>
          Pass.resume system restart (.again ended.1 ended.2.finish) := by
  have rest : system.maxIterations - total = remaining := by omega
  induction left generalizing total remaining taken with
  | zero =>
    have full : decide (restart ≤ taken.cycle.columns.length) = true := by
      rw [decide_eq_true_eq]
      omega
    rw [Step.isLast_eq system restart count, full, Bool.or_true, if_pos rfl]
    -- the vector that would extend the basis plays no part in the solution
    split <;> rw [← rest] <;> rfl
  | succ left ih =>
    have room : decide (restart ≤ taken.cycle.columns.length) = false := by
      rw [decide_eq_false_iff_not]
      omega
    rw [Step.isLast_eq system restart count, room, Bool.or_false]
    by_cases ends : taken.endsPass system total = true
    · rw [if_pos ends, if_pos ends, ← rest]
      rfl
    · have below := Step.lt_of_goesOn system ends
      have more : remaining ≠ 0 := by omega
      obtain ⟨fewer, rfl⟩ := Nat.exists_eq_succ_of_ne_zero more
      have iteration : system.maxIterations - fewer = total + 1 := by omega
      rw [if_neg ends, if_neg ends, advance_succ, passSteps, iteration, bind_assoc]
      refine (step_yields_columns system _ _ _).bind_congr fun later grown => ?_
      have size : later.cycle.columns.length + left = restart := by
        have same : taken.extend.columns.length = taken.cycle.columns.length := rfl
        omega
      exact ih size (by omega) (by omega)

/-- A solve is a pass and what it resumes with. -/
theorem beginCycle_eq_pass (system : LinearSystem σ R n) {restart total remaining : Nat}
    (atLeastOne : restart ≠ 0) (count : total + remaining = system.maxIterations)
    (x : Vector R n) :
    beginCycle system remaining (advance system restart remaining) x =
      pass system restart total x >>= Pass.resume system restart := by
  have rest : system.maxIterations - remaining = total := by omega
  rw [beginCycle_eq, pass]
  rw [bind_assoc]
  refine bind_congr fun r => ?_
  dsimp only
  cases remaining with
  | zero =>
    have reached : system.maxIterations ≤ total := by omega
    rw [if_pos (Or.inr rfl), if_pos (Or.inr reached), rest]
    rfl
  | succ fewer =>
    have goesOn : ¬system.maxIterations ≤ total := by omega
    simp only [Nat.succ_ne_zero, or_false, goesOn, rest]
    split
    · rfl
    · obtain ⟨left, rfl⟩ := Nat.exists_eq_succ_of_ne_zero atLeastOne
      have iteration : system.maxIterations - fewer = total + 1 := by omega
      rw [advance_succ, passSteps, iteration, bind_assoc, bind_assoc]
      refine (step_yields_columns system _ _ _).bind_congr fun taken grown => ?_
      have size : taken.cycle.columns.length + left = left + 1 := by
        have none : (Cycle.start x r (system.op.comm.norm r)).columns.length = 0 := rfl
        omega
      exact afterStep_eq system size (by omega)

/-- What a pass may lead to after a total of steps: a solution with that total, or
another pass after at least one more step and no more than the limit. -/
def Pass.Progresses (system : LinearSystem σ R n) (total : Nat) : Pass R n → Prop
  | .accepted solution => solution.status.iterations = total
  | .again next _ => total < next ∧ next ≤ system.maxIterations

/-- The steps of a pass raise the total, and keep it within the limit. -/
theorem passSteps_yields (system : LinearSystem σ R n) (restart left : Nat) {total : Nat}
    (below : total < system.maxIterations) (cycle : Cycle R n) :
    (passSteps system restart left total cycle).Yields fun ended =>
      total + min left 1 ≤ ended.1 ∧ ended.1 ≤ system.maxIterations := by
  induction left generalizing total cycle with
  | zero =>
    have bounds : total + min 0 1 ≤ total ∧ total ≤ system.maxIterations := by omega
    exact Attempt.yields_pure bounds
  | succ left ih =>
    rw [passSteps]
    refine (Attempt.yields_any _).bind fun taken _ => ?_
    split
    · have bounds : total + min (left + 1) 1 ≤ total + 1 ∧ total + 1 ≤ system.maxIterations := by
        omega
      exact Attempt.yields_pure bounds
    · rename_i goesOn
      have more := Step.lt_of_goesOn system goesOn
      refine (ih more taken.extend).mono fun ended bounds => ?_
      omega

/-- A pass that does not end a solve has taken a step. -/
theorem pass_yields (system : LinearSystem σ R n) {restart : Nat} (atLeastOne : restart ≠ 0)
    (total : Nat) (x : Vector R n) :
    (pass system restart total x).Yields (Pass.Progresses system total) := by
  unfold pass
  refine (Attempt.yields_any _).bind fun r _ => ?_
  dsimp only
  split
  · exact Attempt.yields_pure rfl
  · rename_i refused
    have below : total < system.maxIterations :=
      Nat.lt_of_not_le fun reached => refused (Or.inr reached)
    refine (passSteps_yields system restart restart below _).bind fun ended bounds => ?_
    have progress : total < ended.1 ∧ ended.1 ≤ system.maxIterations := by omega
    exact Attempt.yields_pure progress

/-- A breakdown names an iteration within a limit. -/
def BreaksWithin (limit : Nat) (halt : Halt R n) : Prop :=
  ∀ method iteration cause, halt.error = .breakdown method iteration cause → iteration ≤ limit

omit [Scalar R] in
/-- An operator that fails breaks nothing down. -/
theorem apply_failsOnly (system : LinearSystem σ R n) (limit : Nat) (x v : Vector R n) :
    (system.apply x v).FailsOnly (BreaksWithin limit) := by
  refine (Attempt.failsOnly_any _).mapError fun error _ => ?_
  rintro _ _ _ ⟨⟩

/-- A step breaks down at its own iteration only. -/
theorem step_failsOnly (system : LinearSystem σ R n) (method : KrylovMethod)
    {iteration limit : Nat} (within : iteration ≤ limit) (cycle : Cycle R n) :
    (step system method iteration cycle).FailsOnly (BreaksWithin limit) := by
  have prepares : (system.precondition cycle.x cycle.newest).FailsOnly (BreaksWithin limit) := by
    unfold LinearSystem.precondition
    split
    · exact Attempt.failsOnly_pure _
    · refine (Attempt.failsOnly_any _).mapError fun error _ => ?_
      rintro _ _ _ ⟨⟩
  rw [step_eq]
  refine prepares.bind fun z => (apply_failsOnly system limit cycle.x z).bind fun image => ?_
  dsimp only
  split
  · refine Attempt.failsOnly_fail ?_
    rintro _ _ _ ⟨⟩
    exact within
  · exact Attempt.failsOnly_pure _

/-- A pass that has steps left breaks down within the limit. -/
theorem passSteps_failsOnly (system : LinearSystem σ R n) (restart left : Nat) {total : Nat}
    (below : total < system.maxIterations) (cycle : Cycle R n) :
    (passSteps system restart left total cycle).FailsOnly (BreaksWithin system.maxIterations) := by
  induction left generalizing total cycle with
  | zero => exact Attempt.failsOnly_pure _
  | succ left ih =>
    rw [passSteps]
    refine (step_failsOnly system _ below cycle).bind fun taken => ?_
    split
    · exact Attempt.failsOnly_pure _
    · rename_i goesOn
      exact ih (Step.lt_of_goesOn system goesOn) taken.extend

/-- A pass breaks down within the limit. -/
theorem pass_failsOnly (system : LinearSystem σ R n) (restart total : Nat) (x : Vector R n) :
    (pass system restart total x).FailsOnly (BreaksWithin system.maxIterations) := by
  have measures : (system.residual x).FailsOnly (BreaksWithin system.maxIterations) :=
    (apply_failsOnly system _ x x).bind fun image => Attempt.failsOnly_pure _
  unfold pass
  refine measures.bind fun r => ?_
  dsimp only
  split
  · exact Attempt.failsOnly_pure _
  · rename_i refused
    have below : total < system.maxIterations :=
      Nat.lt_of_not_le fun reached => refused (Or.inr reached)
    exact (passSteps_failsOnly system restart restart below _).bind fun ended =>
      Attempt.failsOnly_pure _

/-- The passes end after at most as many as steps are left and one, and with what
the solve ends with. -/
theorem ends_beginCycle (system : LinearSystem σ R n) {restart : Nat} (atLeastOne : restart ≠ 0)
    {total remaining : Nat} (count : total + remaining = system.maxIterations) (x : Vector R n)
    (state : σ) :
    ∃ passes, passes ≤ remaining + 1 ∧ Ends system restart passes total x state
      ((beginCycle system remaining (advance system restart remaining) x).run state) := by
  -- a pass may take several of the steps that are left
  induction remaining using Nat.strongRecOn generalizing total x state with
  | ind remaining ih =>
    rw [beginCycle_eq_pass system atLeastOne count, Attempt.run_bind]
    rcases run : (pass system restart total x).run state with
      ⟨halt | solution | ⟨next, moved⟩, after⟩
    · exact ⟨1, Nat.le_add_left 1 remaining, .failed run⟩
    · exact ⟨1, Nat.le_add_left 1 remaining, .accepted run⟩
    · have progress : total < next ∧ next ≤ system.maxIterations :=
        pass_yields system atLeastOne total x state _ after run
      have fewer : system.maxIterations - next < remaining := by omega
      have kept : next + (system.maxIterations - next) = system.maxIterations := by omega
      obtain ⟨passes, bound, ends⟩ := ih _ fewer kept moved after
      exact ⟨passes + 1, by omega, .again run ends⟩

/-- A solve ends with a total within the limit. -/
theorem Ends.iterations_le {system : LinearSystem σ R n} {restart passes total : Nat}
    {x : Vector R n} {state : σ} {outcome : Except (Halt R n) (Solution R n) × σ}
    (ends : Ends system restart passes total x state outcome) (atLeastOne : restart ≠ 0)
    (within : total ≤ system.maxIterations) :
    ∀ solution, outcome.1 = .ok solution →
      solution.status.iterations ≤ system.maxIterations := by
  induction ends with
  | @accepted total x state after solution run =>
    intro found same
    have told : solution.status.iterations = total :=
      pass_yields system atLeastOne total x state _ after run
    rw [← Except.ok.inj same, told]
    exact within
  | failed run =>
    intro found same
    cases same
  | @again passes total next x moved state between outcome run rest ih =>
    have progress : total < next ∧ next ≤ system.maxIterations :=
      pass_yields system atLeastOne total x state _ between run
    exact ih progress.2

section Calls

variable (system : LinearSystem σ R n)

/-- A step of a cycle takes one call. -/
theorem step_counts (method : KrylovMethod) (iteration : Nat) (cycle : Cycle R n) :
    (step system.counted method iteration cycle).Counts (step system method iteration cycle) 1 := by
  show Attempt.Counts _ _ (0 + (1 + 0))
  rw [step_eq, step_eq]
  refine (system.counts_precondition cycle.x cycle.newest).bind fun z => ?_
  refine (system.counts_apply cycle.x z).bind fun image => ?_
  have same : orthogonalize system.counted (cycle.basis ++ [cycle.newest]) image =
      orthogonalize system (cycle.basis ++ [cycle.newest]) image := orthogonalize_congr (by rfl) _ _
  rw [same]
  exact Attempt.counts_ite (Attempt.counts_fail _) (Attempt.counts_pure _)

/-- A cycle begins with one call. -/
theorem beginCycle_counts (remaining : Nat)
    {advance : Cycle R n → Solving (σ × Nat) R n (Solution R n)}
    {advancePlain : Cycle R n → Solving σ R n (Solution R n)} {most : Nat}
    (advances : ∀ cycle, (advance cycle).Counts (advancePlain cycle) most) (x : Vector R n) :
    (beginCycle system.counted remaining advance x).Counts
      (beginCycle system remaining advancePlain x) (1 + most) := by
  rw [beginCycle_eq, beginCycle_eq]
  refine (system.counts_residual x).bind fun r => ?_
  exact Attempt.counts_ite ((Attempt.counts_pure _).mono (Nat.zero_le most)) (advances _)

/-- Each step that is left takes at most two calls: its own, and one for the residual
if it is the last of its cycle. -/
theorem advance_counts (restart remaining : Nat) (cycle : Cycle R n) :
    (advance system.counted restart remaining cycle).Counts (advance system restart remaining cycle)
      (2 * remaining) := by
  induction remaining generalizing cycle with
  | zero => exact Attempt.counts_pure _
  | succ remaining ih =>
    have calls : 2 * (remaining + 1) = 1 + (1 + 2 * remaining) := by omega
    rw [calls, advance_succ, advance_succ]
    refine (step_counts system _ _ cycle).bind fun taken => ?_
    have goesOn : (advance system.counted restart remaining taken.extend).Counts
        (advance system restart remaining taken.extend) (1 + 2 * remaining) :=
      (ih taken.extend).mono (Nat.le_add_left _ 1)
    exact Attempt.counts_ite (beginCycle_counts system remaining ih _) goesOn

/-- A solve takes at most two calls for each step of its limit, and one. -/
theorem solve_counts (restart : Nat) (x : Vector R n) :
    (solve system.counted restart x).Counts (solve system restart x)
      (1 + 2 * system.maxIterations) :=
  beginCycle_counts system system.maxIterations (advance_counts system (max restart 1) _) x

end Calls

end MinimalResiduals

namespace KrylovSolver

open MinimalResiduals

variable {σ R : Type} [Scalar R] {n : Nat}

/-- A solver with minimal residuals keeps to these calls for vectors that fit. -/
theorem solve_counts (solver : KrylovSolver R) {restart : Nat}
    (chosen : solver.method = .gmres restart) (op : Operator σ R n)
    (preconditioner : Option (Preconditioner σ R n)) (b x : Vector R n) :
    (solver.solve op.counted (preconditioner.map .besides) b x).Counts
      (solver.solve op preconditioner b x) (1 + 2 * solver.maxIterations) := by
  rw [solve_eq, solve_eq, chosen]
  exact Attempt.counts_ite ((Attempt.counts_pure _).mono (Nat.zero_le _))
    (MinimalResiduals.solve_counts (solver.systemOf op preconditioner b (op.comm.norm b)) restart x)

/-- So it does for vectors of any length. -/
theorem solveChecked_counts (solver : KrylovSolver R) {restart : Nat}
    (chosen : solver.method = .gmres restart) (op : Operator σ R n)
    (preconditioner : Option (Preconditioner σ R n)) (b x : Array R) :
    (solver.solveChecked op.counted (preconditioner.map .besides) b x).Counts
      (solver.solveChecked op preconditioner b x) (1 + 2 * solver.maxIterations) := by
  unfold solveChecked solveCheckedBy
  split
  · exact (Attempt.counts_fail _).mono (Nat.zero_le _)
  · exact ((solver.solve_counts chosen op preconditioner _ _).mapError _).bind fun _ =>
      Attempt.counts_pure _

/-- The passes of minimal residuals come to an end within a limit of steps. -/
structure PassesEnd (solver : KrylovSolver R) (restart : Nat) (op : Operator σ R n)
    (preconditioner : Option (Preconditioner σ R n)) : Prop where
  /-- A pass that does not end the solve takes a step, and no pass exceeds the limit. -/
  progress : ∀ b bNorm total x,
    (pass (solver.systemOf op preconditioner b bNorm) restart total x).Yields
      (Pass.Progresses (solver.systemOf op preconditioner b bNorm) total)
  /-- A pass that breaks down does so at a step within the limit. -/
  breakdowns : ∀ b bNorm total x,
    (pass (solver.systemOf op preconditioner b bNorm) restart total x).FailsOnly
      (BreaksWithin solver.maxIterations)
  /-- The passes end, with what the method ends with. -/
  ends : ∀ b bNorm x state, ∃ passes, passes ≤ solver.maxIterations + 1 ∧
    Ends (solver.systemOf op preconditioner b bNorm) restart passes 0 x state
      ((runMethod solver.method (solver.systemOf op preconditioner b bNorm) x).run state)
  /-- The total of steps that a solve reports is within the limit. -/
  total : ∀ b x, (solver.solveChecked op preconditioner b x).Yields fun result =>
    result.2.iterations ≤ solver.maxIterations
  /-- A counter of the solver's own calls of the operator changes nothing else, and ends
  within twice the limit and one. -/
  calls : ∀ b x state, ∃ calls, calls ≤ 2 * solver.maxIterations + 1 ∧
    (solver.solveChecked op.counted (preconditioner.map .besides) b x).run (state, 0) =
      (((solver.solveChecked op preconditioner b x).run state).1,
        ((solver.solveChecked op preconditioner b x).run state).2, calls)

/-- A solve reports a total within its limit. -/
theorem solveChecked_yields_iterations (solver : KrylovSolver R) {restart : Nat}
    (chosen : solver.method = .gmres restart) (op : Operator σ R n)
    (preconditioner : Option (Preconditioner σ R n)) (b x : Array R) :
    (solver.solveChecked op preconditioner b x).Yields fun result =>
      result.2.iterations ≤ solver.maxIterations := by
  have solved (rhs start : Vector R n) : (solver.solve op preconditioner rhs start).Yields
      fun solution => solution.status.iterations ≤ solver.maxIterations := by
    rw [solve_eq]
    split
    · exact Attempt.yields_pure (Nat.zero_le _)
    · rw [chosen]
      intro state solution after run
      have atLeastOne : max restart 1 ≠ 0 := by omega
      obtain ⟨passes, -, ends⟩ := ends_beginCycle
        (solver.systemOf op preconditioner rhs (op.comm.norm rhs)) atLeastOne
        (Nat.zero_add solver.maxIterations) start state
      refine ends.iterations_le atLeastOne (Nat.zero_le _) solution ?_
      exact congrArg Prod.fst run
  unfold solveChecked solveCheckedBy
  split
  · exact Attempt.yields_fail _
  · exact ((solved _ _).mapError _).bind fun solution bound => Attempt.yields_pure bound

/-- Minimal residuals end for every input. Whatever arithmetic they run in, and whatever
the operator, the preconditioner, the tolerance, the limit and the number of steps to a
restart: each pass that does not end a solve takes a step, the total of steps stays within
the limit, so the passes end, and the solver calls the operator at most twice for each step
of the limit and once more. -/
theorem gmres_passes_end (restart maxIterations : Nat) (tolerance : R) (op : Operator σ R n)
    (preconditioner : Option (Preconditioner σ R n)) :
    PassesEnd ⟨.gmres restart, maxIterations, tolerance⟩ (max restart 1) op preconditioner := by
  have atLeastOne : max restart 1 ≠ 0 := by omega
  constructor
  case progress =>
    intro b bNorm total x
    exact pass_yields _ atLeastOne total x
  case breakdowns => exact fun _ _ total x => pass_failsOnly _ _ total x
  case ends =>
    intro b bNorm x state
    exact ends_beginCycle _ atLeastOne (Nat.zero_add maxIterations) x state
  case total => exact solveChecked_yields_iterations _ rfl op preconditioner
  case calls =>
    intro b x state
    obtain ⟨made, bound, run⟩ := solveChecked_counts ⟨.gmres restart, maxIterations, tolerance⟩
      rfl op preconditioner b x state 0
    rw [Nat.zero_add] at run
    exact ⟨made, by omega, run⟩

end KrylovSolver

end HexSlab

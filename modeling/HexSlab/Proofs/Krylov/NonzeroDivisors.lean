import HexSlab.Proofs.Krylov.MinimalCycles
import HexSlab.Proofs.Krylov.RecordedSolves

/-!
# Divisors that are never zero

The divisors of an iteration are compared with zero before they are used, but seldom
where they are used. The norm of the right-hand side is compared once for the whole
solve. Stabilized biconjugate gradients compare two of the divisors an iteration
earlier. A cycle of minimal residuals compares the length of each rotation, which is
the entry of the diagonal that the back substitution divides by at the end of the
cycle. What a comparison found out is kept in an invariant until the division. A solve
that cannot go on without a division by zero stops with a breakdown of its method.
-/

namespace HexSlab

open Attempt Division MinimalResiduals

variable {σ R : Type} [Field R] [LinearOrder R] [Roots R] {n : Nat}

/-- A divisor that is not zero, wherever it divides. -/
abbrev Divisor.IsNonzero (_place : Divisor) (divisor : R) : Prop := divisor ≠ 0

namespace BiconjugateGradients

variable {system : LinearSystem σ R n}

/-- The direction of the first iteration is made without divisions, and that of a later
one divides by what the iteration before has left. -/
theorem State.records_direction {state : State R n} {iteration : Nat}
    (later : iteration ≠ 1 → state.rho ≠ 0 ∧ state.omega ≠ 0) (rho : R) :
    (state.directionBy .recorded iteration rho : RecordedSolving σ R n (Vector R n)).Records
      (pure (state.direction iteration rho)) Divisor.IsNonzero := by
  unfold State.directionBy State.direction
  by_cases first : iteration = 1
  · rw [if_pos first, if_pos first]
    exact records_pure _
  · rw [if_neg first, if_neg first]
    obtain ⟨shadow, stabilization⟩ := later first
    exact (records_divide shadow).bind_pure
      ((records_divide stabilization).bind_pure (records_pure _))

/-- The stabilizing step divides by a square that is positive. -/
theorem records_stabilization (system : LinearSystem σ R n) (t s : Vector R n) :
    (stabilizationBy .recorded system.recorded t s).Records (pure (stabilization system t s))
      Divisor.IsNonzero := by
  unfold stabilizationBy stabilization
  show Records (if 0 < system.dot t t then _ else _) _ _
  by_cases positive : 0 < system.dot t t
  · rw [if_pos positive, if_pos positive]
    exact records_divide positive.ne'
  · rw [if_neg positive, if_neg positive]
    exact records_pure _

/-- No iteration divides by zero, given that the one before has left no zero. -/
theorem records_iterate (nonzero : system.bNorm ≠ 0) (shadow : Vector R n)
    (remaining iteration : Nat) (state : State R n)
    (later : iteration ≠ 1 → state.rho ≠ 0 ∧ state.omega ≠ 0) :
    (iterateBy .recorded system.recorded shadow remaining iteration state).Records
      (iterate system shadow remaining iteration state) Divisor.IsNonzero := by
  induction remaining generalizing iteration state with
  | zero => exact records_pure _
  | succ remaining ih =>
    rw [iterateBy, iterate_succ]
    refine records_ite (fun _ => records_fail _) fun shadowed => ?_
    refine (State.records_direction later _).bind_pure ?_
    refine (system.records_precondition _ _).bind (yields_any _) fun pHat _ => ?_
    refine (system.records_apply _ _).bind (yields_any _) fun v _ => ?_
    refine records_ite (fun _ => records_fail _) fun along => ?_
    refine (records_divide (mt beq_iff_eq.mpr along)).bind_pure ?_
    refine (LinearSystem.records_relativeNorm nonzero _).bind_pure ?_
    refine records_ite (fun _ => records_pure _) fun _ => ?_
    refine (system.records_precondition _ _).bind (yields_any _) fun sHat _ => ?_
    refine (system.records_apply _ _).bind (yields_any _) fun t _ => ?_
    refine (records_stabilization system t _).bind_pure ?_
    refine (LinearSystem.records_relativeNorm nonzero _).bind_pure ?_
    refine records_ite (fun _ => records_pure _) fun _ => ?_
    refine records_ite (fun _ => records_fail _) fun stabilized => ?_
    -- what the next iteration divides by has just been compared with zero
    exact ih _ _ fun _ => ⟨mt beq_iff_eq.mpr shadowed, mt beq_iff_eq.mpr stabilized⟩

/-- No solve divides by zero. -/
theorem records_solve (nonzero : system.bNorm ≠ 0) (x : Vector R n) :
    (solveBy .recorded system.recorded x).Records (solve system x) Divisor.IsNonzero := by
  rw [solve_eq]
  refine (system.records_residual x).bind (yields_any _) fun r _ => ?_
  refine (LinearSystem.records_relativeNorm nonzero r).bind_pure ?_
  refine records_ite (fun _ => records_pure _) fun _ => ?_
  exact records_iterate nonzero r _ 1 _ fun more => absurd rfl more

end BiconjugateGradients

namespace MinimalResiduals

variable {system : LinearSystem σ R n}

/-- A cycle whose triangular system can be solved, and stays so with each step. -/
structure Cycle.Solvable (cycle : Cycle R n) : Prop where
  /-- The columns are those of a triangular matrix without a zero on its diagonal. -/
  triangular : IsTriangular cycle.columns
  /-- There is a rotation for each column. -/
  length_rotations : cycle.rotations.length = cycle.columns.length
  /-- There is a vector of the basis for each column. -/
  length_basis : cycle.basis.length = cycle.columns.length

/-- A cycle starts without columns. -/
theorem Cycle.solvable_start (x r : Vector R n) (norm : R) :
    (Cycle.start x r norm).Solvable :=
  ⟨isTriangular_nil, rfl, rfl⟩

/-- A step leaves the triangular system solvable: the length of its rotation, which is
not zero, is the new entry of the diagonal. -/
theorem step_yields_solvable (system : LinearSystem σ R n) (method : KrylovMethod)
    (iteration : Nat) {cycle : Cycle R n} (solvable : cycle.Solvable) :
    (step system method iteration cycle).Yields fun taken => taken.extend.Solvable := by
  unfold step
  refine (yields_any _).bind fun z _ => ?_
  refine (yields_any _).bind fun image _ => ?_
  dsimp only
  have size := length_orthogonalize system (cycle.basis ++ [cycle.newest]) image
  generalize orthogonalize system (cycle.basis ++ [cycle.newest]) image = made at size ⊢
  rw [List.length_append, List.length_singleton, solvable.length_basis] at size
  have shorter : made.1.tail.length = cycle.rotations.length := by
    rw [List.length_tail, size, solvable.length_rotations, Nat.add_sub_cancel]
  have reach := length_rotateColumn cycle.rotations (made.1.headD 0) made.1.tail shorter
  split
  · exact yields_fail _
  · rename_i vanished
    exact yields_pure {
      triangular := solvable.triangular.concat (reach.trans solvable.length_rotations)
        (mt beq_iff_eq.mpr vanished)
      length_rotations := length_concat_congr solvable.length_rotations _ _
      length_basis := length_concat_congr solvable.length_basis _ _ }

/-- A step divides by the length of its rotation, which is not zero. -/
theorem records_step (system : LinearSystem σ R n) (method : KrylovMethod) (iteration : Nat)
    (cycle : Cycle R n) :
    (stepBy .recorded system.recorded method iteration cycle).Records
      (step system method iteration cycle) Divisor.IsNonzero := by
  rw [stepBy, step_eq]
  refine (system.records_precondition _ _).bind (yields_any _) fun z _ => ?_
  refine (system.records_apply _ _).bind (yields_any _) fun image _ => ?_
  have same : orthogonalize system.recorded (cycle.basis ++ [cycle.newest]) image =
      orthogonalize system (cycle.basis ++ [cycle.newest]) image := orthogonalize_congr (by rfl) _ _
  rw [same]
  refine records_ite (fun _ => records_fail _) fun vanished => ?_
  have nonzero := mt beq_iff_eq.mpr vanished
  exact (records_divide nonzero).bind_pure
    ((records_divide nonzero).bind_pure (records_pure _))

/-- Back substitution divides by the entries of the diagonal. -/
theorem records_backSubstitute {columns : List (List R)} (triangular : IsTriangular columns)
    (rhs : List R) (row : Nat) (solved : List R) (inside : row ≤ columns.length) :
    (backSubstituteBy .recorded columns rhs row solved :
      RecordedSolving σ R n (List R)).Records
        (pure (backSubstitute columns rhs row solved)) Divisor.IsNonzero := by
  induction row generalizing solved with
  | zero => exact records_pure _
  | succ row ih =>
    rw [backSubstituteBy, backSubstitute]
    have pivot := triangular.diagonal row inside
    exact (records_divide pivot).bind_pure (ih _ (Nat.le_of_succ_le inside))

/-- The end of a solvable cycle divides by no zero. -/
theorem Cycle.Solvable.records_finish {cycle : Cycle R n} (solvable : cycle.Solvable) :
    (cycle.finishBy .recorded : RecordedSolving σ R n (Vector R n)).Records (pure cycle.finish)
      Divisor.IsNonzero :=
  (records_backSubstitute solvable.triangular cycle.settled _ [] le_rfl).bind_pure
    (records_pure _)

/-- A cycle begins with a residual that is not zero, or does not begin. -/
theorem records_beginCycle (tolerant : 0 ≤ system.tolerance) (nonzero : system.bNorm ≠ 0)
    (remaining : Nat) {advance : Cycle R n → RecordedSolving σ R n (Solution R n)}
    {advancePlain : Cycle R n → Solving σ R n (Solution R n)}
    (advances : ∀ cycle : Cycle R n, cycle.Solvable →
      (advance cycle).Records (advancePlain cycle) Divisor.IsNonzero) (x : Vector R n) :
    (beginCycleBy .recorded system.recorded remaining advance x).Records
      (beginCycle system remaining advancePlain x) Divisor.IsNonzero := by
  rw [beginCycleBy, beginCycle_eq]
  refine (system.records_residual x).bind (yields_any _) fun r _ => ?_
  refine (records_divide nonzero).bind_pure ?_
  refine records_ite (fun _ => records_pure _) fun goesOn => ?_
  have remains : system.op.comm.norm r ≠ 0 :=
    norm_ne_zero tolerant fun accepted => goesOn (Or.inl accepted)
  exact (records_divideAll remains).bind_pure (advances _ (Cycle.solvable_start x r _))

/-- The steps that are left divide by no zero, in as many cycles as they need. -/
theorem records_advance (tolerant : 0 ≤ system.tolerance) (nonzero : system.bNorm ≠ 0)
    (restart remaining : Nat) (cycle : Cycle R n) (solvable : cycle.Solvable) :
    (advanceBy .recorded system.recorded restart remaining cycle).Records
      (advance system restart remaining cycle) Divisor.IsNonzero := by
  induction remaining generalizing cycle with
  | zero => exact (records_divide nonzero).bind_pure (records_pure _)
  | succ remaining ih =>
    rw [advanceBy, advance_succ]
    refine (records_step system _ _ cycle).bind (step_yields_solvable system _ _ solvable)
      fun taken kept => ?_
    refine (records_divide nonzero).bind_pure ?_
    have finishes : (taken.cycle.finishBy .recorded >>= beginCycleBy .recorded system.recorded
        remaining (advanceBy .recorded system.recorded restart remaining)).Records
          (beginCycle system remaining (advance system restart remaining) taken.cycle.finish)
          Divisor.IsNonzero := by
      -- the vector that would extend the basis plays no part in the solution
      have solved : (taken.cycle.finishBy .recorded : RecordedSolving σ R n (Vector R n)).Records
          (pure taken.cycle.finish) Divisor.IsNonzero := kept.records_finish
      exact solved.bind_pure (records_beginCycle tolerant nonzero remaining ih _)
    dsimp only
    split
    case isTrue ends =>
      rw [if_pos ((Step.isLast_iff system ..).mpr (.inl ends))]
      exact finishes
    case isFalse ends =>
      have remains : taken.next ≠ 0 :=
        mt beq_iff_eq.mpr fun none => ends (Or.inr (Or.inl none))
      refine (records_divideAll remains).bind_pure ?_
      by_cases full : restart ≤ taken.cycle.columns.length
      · rw [if_pos full, if_pos ((Step.isLast_iff system ..).mpr (.inr full))]
        exact finishes
      · have goesOn := fun last => ((Step.isLast_iff system ..).mp last).elim ends full
        rw [if_neg full, if_neg goesOn]
        exact ih taken.extend kept

/-- No solve divides by zero. -/
theorem records_solve (tolerant : 0 ≤ system.tolerance) (nonzero : system.bNorm ≠ 0)
    (restart : Nat) (x : Vector R n) :
    (solveBy .recorded system.recorded restart x).Records (solve system restart x)
      Divisor.IsNonzero :=
  records_beginCycle tolerant nonzero _ (records_advance tolerant nonzero _ _) x

end MinimalResiduals

namespace SolverError

/-- What a solve with a method may stop with: a breakdown under the name of this method,
or an error of the preconditioner or of the operator. -/
inductive Stops {R : Type} (method : KrylovMethod) : SolverError R → Prop
  /-- The method cannot go on. -/
  | breakdown (used : KrylovMethod) (iteration : Nat) (cause : Breakdown)
      (named : used.name = method.name) : Stops method (.breakdown used iteration cause)
  /-- The preconditioner failed. -/
  | preconditioner (error : PreconditionerError R) : Stops method (.preconditioner error)
  /-- The operator failed. -/
  | operator (error : OperatorError) : Stops method (.operator error)

end SolverError

section Stops

variable {S : Type}

/-- A solve was stopped by an error that its method may stop with. -/
abbrev Halt.Stops (method : KrylovMethod) (halt : Halt S n) : Prop := halt.error.Stops method

variable [Scalar S] (system : LinearSystem σ S n)

namespace LinearSystem

omit [Scalar S] in
/-- An operator that fails stops every method. -/
theorem stops_apply (method : KrylovMethod) (x v : Vector S n) :
    (system.apply x v).FailsOnly (Halt.Stops method) :=
  (failsOnly_any _).mapError fun error _ => .operator error

/-- A preconditioner that fails stops every method. -/
theorem stops_precondition (method : KrylovMethod) (x r : Vector S n) :
    (system.precondition x r).FailsOnly (Halt.Stops method) := by
  unfold precondition
  split
  · exact failsOnly_pure _
  · exact (failsOnly_any _).mapError fun error _ => .preconditioner error

/-- So does an operator that fails on the first residual. -/
theorem stops_residual (method : KrylovMethod) (x : Vector S n) :
    (system.residual x).FailsOnly (Halt.Stops method) :=
  (system.stops_apply method x x).bind fun _ => failsOnly_pure _

omit [Scalar S] in
/-- A breakdown stops the method that is named in it. -/
theorem stops_breakdown {α : Type} (x : Vector S n) {used method : KrylovMethod}
    (named : used.name = method.name) (iteration : Nat) (cause : Breakdown) :
    (breakdown x used iteration cause : Solving σ S n α).FailsOnly (Halt.Stops method) :=
  failsOnly_fail (.breakdown used iteration cause named)

end LinearSystem

namespace ConjugateGradients

/-- What stops iterations of conjugate gradients. -/
theorem stops_iterate (remaining iteration : Nat) (state : State S n) :
    (iterate system remaining iteration state).FailsOnly (Halt.Stops .cg) := by
  induction remaining generalizing iteration state with
  | zero => exact failsOnly_pure _
  | succ remaining ih =>
    rw [iterate_succ]
    refine (system.stops_apply .cg _ _).bind fun image => ?_
    refine failsOnly_ite (failsOnly_ite (failsOnly_pure _) ?_)
      (LinearSystem.stops_breakdown _ rfl _ _)
    exact (system.stops_precondition .cg _ _).bind fun z => ih _ _

/-- What stops a solve with conjugate gradients. -/
theorem stops_solve (x : Vector S n) : (solve system x).FailsOnly (Halt.Stops .cg) := by
  rw [solve_eq]
  refine (system.stops_residual .cg x).bind fun r => ?_
  refine failsOnly_ite (failsOnly_pure _) ?_
  exact (system.stops_precondition .cg _ _).bind fun z => stops_iterate system _ _ _

end ConjugateGradients

namespace BiconjugateGradients

/-- What stops iterations of stabilized biconjugate gradients. -/
theorem stops_iterate (shadow : Vector S n) (remaining iteration : Nat) (state : State S n) :
    (iterate system shadow remaining iteration state).FailsOnly (Halt.Stops .bicgstab) := by
  induction remaining generalizing iteration state with
  | zero => exact failsOnly_pure _
  | succ remaining ih =>
    rw [iterate_succ]
    refine failsOnly_ite (LinearSystem.stops_breakdown _ rfl _ _) ?_
    refine (system.stops_precondition .bicgstab _ _).bind fun pHat => ?_
    refine (system.stops_apply .bicgstab _ _).bind fun v => ?_
    refine failsOnly_ite (LinearSystem.stops_breakdown _ rfl _ _) ?_
    refine failsOnly_ite (failsOnly_pure _) ?_
    refine (system.stops_precondition .bicgstab _ _).bind fun sHat => ?_
    refine (system.stops_apply .bicgstab _ _).bind fun t => ?_
    refine failsOnly_ite (failsOnly_pure _) ?_
    exact failsOnly_ite (LinearSystem.stops_breakdown _ rfl _ _) (ih _ _)

/-- What stops a solve with stabilized biconjugate gradients. -/
theorem stops_solve (x : Vector S n) : (solve system x).FailsOnly (Halt.Stops .bicgstab) := by
  rw [solve_eq]
  refine (system.stops_residual .bicgstab x).bind fun r => ?_
  exact failsOnly_ite (failsOnly_pure _) (stops_iterate system _ _ _ _)

end BiconjugateGradients

namespace MinimalResiduals

/-- What stops a step of a cycle. -/
theorem stops_step {used method : KrylovMethod} (named : used.name = method.name)
    (iteration : Nat) (cycle : Cycle S n) :
    (step system used iteration cycle).FailsOnly (Halt.Stops method) := by
  rw [step_eq]
  refine (system.stops_precondition method _ _).bind fun z => ?_
  refine (system.stops_apply method _ _).bind fun image => ?_
  exact failsOnly_ite (LinearSystem.stops_breakdown _ named _ _) (failsOnly_pure _)

/-- What stops the steps of a cycle stops the cycle. -/
theorem stops_beginCycle {method : KrylovMethod} (remaining : Nat)
    {advance : Cycle S n → Solving σ S n (Solution S n)}
    (advances : ∀ cycle, (advance cycle).FailsOnly (Halt.Stops method)) (x : Vector S n) :
    (beginCycle system remaining advance x).FailsOnly (Halt.Stops method) := by
  rw [beginCycle_eq]
  refine (system.stops_residual method x).bind fun r => ?_
  exact failsOnly_ite (failsOnly_pure _) (advances _)

/-- What stops the steps that are left. -/
theorem stops_advance (restart other remaining : Nat) (cycle : Cycle S n) :
    (advance system restart remaining cycle).FailsOnly (Halt.Stops (.gmres other)) := by
  induction remaining generalizing cycle with
  | zero => exact failsOnly_pure _
  | succ remaining ih =>
    rw [advance_succ]
    have named : (KrylovMethod.gmres restart).name = (KrylovMethod.gmres other).name := rfl
    refine (stops_step system named _ cycle).bind fun taken => ?_
    exact failsOnly_ite (stops_beginCycle system remaining ih _) (ih _)

end MinimalResiduals

namespace KrylovSolver

/-- A solve with a method stops with what may stop this method. -/
theorem stops_runMethod (method : KrylovMethod) (x : Vector S n) :
    (runMethod method system x).FailsOnly (Halt.Stops method) := by
  cases method with
  | cg => exact ConjugateGradients.stops_solve system x
  | gmres restart =>
    exact MinimalResiduals.stops_beginCycle system _
      (MinimalResiduals.stops_advance system _ restart _) x
  | bicgstab => exact BiconjugateGradients.stops_solve system x

/-- So it does for vectors of any length. -/
theorem stops_solveChecked (solver : KrylovSolver S) (op : Operator σ S n)
    (preconditioner : Option (Preconditioner σ S n)) (b x : Array S) :
    (solver.solveChecked op preconditioner b x).FailsOnly fun failure =>
      failure.1.Stops solver.method := by
  have solved (rhs start : Vector S n) :
      (solver.solve op preconditioner rhs start).FailsOnly (Halt.Stops solver.method) :=
    failsOnly_ite (failsOnly_pure _)
      (stops_runMethod (solver.systemOf op preconditioner rhs _) solver.method start)
  unfold solveChecked solveCheckedBy
  split
  · exact failsOnly_fail (.operator _)
  · rename_i rhs start _
    have converted : ((solver.solve op preconditioner rhs start).mapError fun halt =>
        (halt.error, halt.x.toArray)).FailsOnly fun failure =>
          failure.1.Stops solver.method := (solved rhs start).mapError fun _ fact => fact
    exact converted.bind fun _ => failsOnly_pure _

end KrylovSolver

end Stops

namespace KrylovSolver

/-- Recorded divisions of a method are recorded divisions of its solver, for vectors of
any length. The norm of the right-hand side has then been compared with zero. -/
theorem records_solveChecked (solver : KrylovSolver R) (op : Operator σ R n)
    (preconditioner : Option (Preconditioner σ R n)) (b x : Array R)
    {expected : Divisor → R → Prop}
    (solves : ∀ rhs start : Vector R n, op.comm.norm rhs ≠ 0 →
      (runMethodBy .recorded solver.method
        (solver.systemOf op preconditioner rhs (op.comm.norm rhs)).recorded start).Records
          (runMethod solver.method
            (solver.systemOf op preconditioner rhs (op.comm.norm rhs)) start) expected) :
    (solver.solveCheckedRecorded op preconditioner b x).Records
      (solver.solveChecked op preconditioner b x) expected := by
  unfold solveCheckedRecorded solveChecked solveCheckedBy
  rcases checkPair n b x with error | ⟨rhs, start⟩
  · exact records_fail _
  · have solved : (solver.solveRecorded op preconditioner rhs start).Records
        (solver.solve op preconditioner rhs start) expected := by
      rw [solveRecorded, solveBy, solve_eq]
      refine records_ite (fun _ => records_pure _) fun remains => ?_
      exact solves rhs start (mt beq_iff_eq.mpr remains)
    exact (solved.mapError _).bind (yields_any _) fun _ _ => records_pure _

/-- No solve from a start divides by zero. -/
structure DividesByNoZero (solver : KrylovSolver R) (op : Operator σ R n)
    (preconditioner : Option (Preconditioner σ R n)) (b x : Array R) : Prop where
  /-- A record of the divisions changes nothing else, and has no zero in it. -/
  divisors : (solver.solveCheckedRecorded op preconditioner b x).Records
    (solver.solveChecked op preconditioner b x) Divisor.IsNonzero
  /-- What does not end with a status ends with a breakdown of the method, or with an
  error of the preconditioner or the operator. -/
  errors : (solver.solveChecked op preconditioner b x).FailsOnly fun failure =>
    failure.1.Stops solver.method

/-- Stabilized biconjugate gradients and minimal residuals divide by no zero. In exact
arithmetic, for every operator, preconditioner, right-hand side, start, limit and number
of steps to a restart, and every tolerance that is not negative: each divisor that a solve
reaches is not zero, and a solve that could not go on otherwise reports a breakdown. -/
theorem bicgstab_gmres_divide_by_no_zero (solver : KrylovSolver R) (op : Operator σ R n)
    (preconditioner : Option (Preconditioner σ R n)) (b x : Array R)
    (method : solver.method ≠ .cg) (tolerant : 0 ≤ solver.tolerance) :
    solver.DividesByNoZero op preconditioner b x where
  divisors := by
    refine solver.records_solveChecked op preconditioner b x fun rhs start nonzero => ?_
    cases chosen : solver.method with
    | cg => exact absurd chosen method
    | gmres restart => exact MinimalResiduals.records_solve tolerant nonzero restart start
    | bicgstab => exact BiconjugateGradients.records_solve nonzero start
  errors := solver.stops_solveChecked op preconditioner b x

/-- Both methods with a preconditioner that varies. -/
theorem bicgstab_gmres_divide_by_no_zero_growing :
    (⟨.gmres 2, 6, 0⟩ : KrylovSolver Rat).DividesByNoZero
      (Operator.ofAction (Vec.diagonal ![2, 1]) Nat) (some (growing 2)) #[3, 4] #[0, 0] ∧
    (⟨.bicgstab, 6, 0⟩ : KrylovSolver Rat).DividesByNoZero
      (Operator.ofAction (Vec.diagonal ![1, -1]) Nat) (some (growing 2)) #[3, 4] #[0, 0] :=
  ⟨bicgstab_gmres_divide_by_no_zero ⟨.gmres 2, 6, 0⟩ _ _ _ _ (by decide) le_rfl,
    bicgstab_gmres_divide_by_no_zero ⟨.bicgstab, 6, 0⟩ _ _ _ _ (by decide) le_rfl⟩

/-- The second iteration divides by what the first one has left. -/
example : (((⟨.bicgstab, 6, 0⟩ : KrylovSolver Rat).solveCheckedRecorded
    (Operator.ofAction (Vec.diagonal ![1, -1]) Unit) none #[3, 4] #[0, 0]).run ((), [])).2.2 =
      [(.rightHandSide, 5), (.along, -7), (.rightHandSide, 5), (.image, 14400 / 49),
        (.rightHandSide, 5), (.shadow, 25), (.stabilization, 7 / 25), (.along, -576 / 7),
        (.rightHandSide, 5)] := by
  decide +kernel

end KrylovSolver

end HexSlab

import HexSlab.Proofs.Krylov.ScaledSystems
import Mathlib.Data.List.Forall2
import Mathlib.Data.List.GetD

/-!
# Cycles whose bases differ by a factor

A cycle of minimal residuals brings its vectors to unit length. In a run whose
norms are multiples the vectors of the basis are shorter by the factor, and so are
the directions; the coefficients that correct the solution are larger by it. The
projected operator is the same in both runs, since it is made of inner products of
two shorter vectors, and so are its rotations and all decisions.
-/

namespace HexSlab

namespace MinimalResiduals

open Vec

variable {σ τ R : Type} [Field R] {n : Nat}

/-- A cycle of another run, whose vectors are shorter by a factor. -/
structure Cycle.CopiedBy (c : R) (cycle copy : Cycle R n) : Prop where
  /-- Both start from one solution. -/
  x_eq : cycle.x = copy.x
  /-- The basis is shorter. -/
  basis : List.Forall₂ (Scaled c⁻¹) cycle.basis copy.basis
  /-- So is its newest vector. -/
  newest : Scaled c⁻¹ cycle.newest copy.newest
  /-- So are the directions. -/
  directions : List.Forall₂ (Scaled c⁻¹) cycle.directions copy.directions
  /-- The triangular matrix is the same. -/
  columns_eq : cycle.columns = copy.columns
  /-- So are the rotations. -/
  rotations_eq : cycle.rotations = copy.rotations
  /-- The rotated right-hand side is a multiple. -/
  settled_eq : copy.settled = cycle.settled.map (c * ·)
  /-- So is its last entry. -/
  last_eq : copy.last = c * cycle.last

/-- A step of another run, whose vectors are shorter by a factor. -/
structure Step.CopiedBy (c : R) (taken copy : Step R n) : Prop where
  /-- The cycles after the step. -/
  cycle : taken.cycle.CopiedBy c copy.cycle
  /-- The remainder is shorter. -/
  remainder : Scaled c⁻¹ taken.remainder copy.remainder
  /-- Its norm is the same. -/
  next_eq : taken.next = copy.next

variable [LinearOrder R] [Roots R] {c : R}

/-- What is known of a row is a multiple if the solution of the later rows is. -/
theorem foldl_known_map (columns : List (List R)) (row first : Nat) (factor start : R)
    (solved : List R) :
    ((solved.map (factor * ·)).zipIdx first).foldl
        (fun sum later => sum + entryAt columns row later.2 * later.1) (factor * start) =
      factor * (solved.zipIdx first).foldl
        (fun sum later => sum + entryAt columns row later.2 * later.1) start := by
  induction solved generalizing first start with
  | nil => rfl
  | cons value solved ih =>
    have begun : factor * start + entryAt columns row first * (factor * value) =
        factor * (start + entryAt columns row first * value) := by ring
    rw [List.map_cons, List.zipIdx_cons, List.foldl_cons, List.zipIdx_cons, List.foldl_cons,
      begun]
    exact ih (first + 1) _

/-- A triangular system with a multiple of a right-hand side has the multiple of
its solution. -/
theorem backSubstitute_map (columns : List (List R)) (rhs : List R) (factor : R) (rows : Nat)
    (solved : List R) :
    backSubstitute columns (rhs.map (factor * ·)) rows (solved.map (factor * ·)) =
      (backSubstitute columns rhs rows solved).map (factor * ·) := by
  induction rows generalizing solved with
  | zero => rfl
  | succ row ih =>
    have known := foldl_known_map columns row (row + 1) factor 0 solved
    rw [mul_zero] at known
    have entry : (rhs.map (factor * ·)).getD row 0 = factor * rhs.getD row 0 := by
      have read := List.getD_map (factor * ·) (l := rhs) (d := 0) (n := row)
      rwa [mul_zero] at read
    rw [backSubstitute, backSubstitute, known, entry, ← mul_sub, mul_div_assoc]
    exact ih (_ :: solved)

/-- Directions that are shorter, with coefficients that are larger by the factor,
correct a solution alike. -/
theorem correct_eq (nonzero : c ≠ 0) {directions copies : List (Vector R n)}
    (shorter : List.Forall₂ (Scaled c⁻¹) directions copies) (coefficients : List R)
    (x : Vector R n) :
    correct x (coefficients.map (c * ·)) copies = correct x coefficients directions := by
  induction shorter generalizing coefficients x with
  | nil => cases coefficients <;> rfl
  | cons scaled _ ih =>
    cases coefficients with
    | nil => rfl
    | cons coefficient coefficients =>
      have step : c * coefficient * c⁻¹ = coefficient := by field_simp
      rw [List.map_cons, correct, correct, scaled.axpy_eq step]
      exact ih coefficients _

/-- The solution at the end of a cycle is the same. -/
theorem Cycle.CopiedBy.finish_eq {cycle copy : Cycle R n} (copied : cycle.CopiedBy c copy)
    (nonzero : c ≠ 0) : copy.finish = cycle.finish := by
  have coefficients : copy.coefficients = cycle.coefficients.map (c * ·) := by
    rw [coefficients, coefficients, copied.settled_eq, ← copied.columns_eq]
    exact backSubstitute_map cycle.columns cycle.settled c _ []
  rw [finish, finish, coefficients, ← copied.x_eq]
  exact correct_eq nonzero copied.directions cycle.coefficients cycle.x

variable {states : σ → τ → Prop} {system : LinearSystem σ R n}
  {copy : LinearSystem τ R n}

/-- Orthogonalizing shorter vectors takes the same coefficients and leaves a shorter
vector. -/
theorem orthogonalize_scaled (copied : system.CopiedBy states c copy)
    {vectors copies : List (Vector R n)} (shorter : List.Forall₂ (Scaled c⁻¹) vectors copies)
    {w w' : Vector R n} (scaled : Scaled c⁻¹ w w') :
    (orthogonalize system vectors w).1 = (orthogonalize copy copies w').1 ∧
      Scaled c⁻¹ (orthogonalize system vectors w).2 (orthogonalize copy copies w').2 := by
  induction shorter generalizing w w' with
  | nil => exact ⟨rfl, scaled⟩
  | @cons v v' _ _ first _ ih =>
    have same : copy.dot w' v' = system.dot w v := copied.reductions.dot_scaled scaled first
    obtain ⟨coefficients, remainder⟩ := ih (first.axpy scaled (-system.dot w v) 1)
    rw [orthogonalize, orthogonalize, same]
    exact ⟨congrArg (_ :: ·) coefficients, remainder⟩

/-- A step goes the same way in both runs. -/
theorem step_inStep (copied : system.CopiedBy states c copy) (method : KrylovMethod)
    (iteration : Nat) {cycle other : Cycle R n} (same : cycle.CopiedBy c other) :
    (step system method iteration cycle).InStep states Eq (Step.CopiedBy c)
      (step copy method iteration other) := by
  rw [step_eq, step_eq, ← same.x_eq, ← same.rotations_eq]
  refine (copied.precondition cycle.x same.newest).bind fun z z' direction => ?_
  refine (copied.apply cycle.x direction).bind fun image image' scaled => ?_
  have vectors : List.Forall₂ (Scaled c⁻¹) (cycle.basis ++ [cycle.newest])
      (other.basis ++ [other.newest]) :=
    List.rel_append same.basis (.cons same.newest .nil)
  have made := orthogonalize_scaled copied vectors scaled
  generalize orthogonalize system (cycle.basis ++ [cycle.newest]) image = own at made ⊢
  generalize orthogonalize copy (other.basis ++ [other.newest]) image' = others at made ⊢
  obtain ⟨column, remainder⟩ := own
  obtain ⟨_, remainder'⟩ := others
  obtain ⟨rfl, remains⟩ := made
  -- the column and the norm of the remainder are the same, so the rotation is too
  dsimp only
  rw [copied.reductions.norm_scaled remains]
  rcases rotateColumn cycle.rotations (column.headD 0) column.tail with ⟨above, corner⟩
  dsimp only
  refine Attempt.inStep_ite Iff.rfl (fun _ => Attempt.inStep_fail rfl) fun _ => ?_
  apply Attempt.inStep_pure
  refine ⟨⟨rfl, same.basis, same.newest, ?_, ?_, rfl, ?_, ?_⟩, remains, rfl⟩
  · exact List.rel_append same.directions (.cons direction .nil)
  · exact congrArg (· ++ _) same.columns_eq
  · dsimp only
    rw [same.settled_eq, same.last_eq, List.map_append, mul_assoc]
    rfl
  · dsimp only
    rw [same.last_eq]
    exact mul_left_comm _ _ _

/-- Both runs end a cycle at the same step. -/
theorem isLast_eq [IsStrictOrderedRing R] (copied : system.CopiedBy states c copy)
    {taken other : Step R n} (same : taken.CopiedBy c other) (restart remaining : Nat) :
    other.isLast copy restart remaining = taken.isLast system restart remaining := by
  have size : Scalar.abs other.cycle.last = c * Scalar.abs taken.cycle.last := by
    show |other.cycle.last| = c * |taken.cycle.last|
    rw [same.cycle.last_eq, abs_mul, abs_of_pos copied.reductions.positive]
  unfold Step.isLast
  rw [size, copied.relative_eq, ← copied.tolerance_eq, same.next_eq, same.cycle.columns_eq]

/-- Going on with the remainder in the basis, the cycles stay in step. -/
theorem Step.CopiedBy.extend {taken other : Step R n} (same : taken.CopiedBy c other) :
    taken.extend.CopiedBy c other.extend where
  x_eq := same.cycle.x_eq
  basis := List.rel_append same.cycle.basis (.cons same.cycle.newest .nil)
  newest := by
    show Scaled c⁻¹ (divBy taken.remainder taken.next) (divBy other.remainder other.next)
    rw [← same.next_eq]
    exact same.remainder.divBy taken.next
  directions := same.cycle.directions
  columns_eq := same.cycle.columns_eq
  rotations_eq := same.cycle.rotations_eq
  settled_eq := same.cycle.settled_eq
  last_eq := same.cycle.last_eq

/-- From one solution a cycle begins in both runs, or in neither. -/
theorem beginCycle_inStep (copied : system.CopiedBy states c copy) (remaining : Nat)
    {advance : Cycle R n → Solving σ R n (Solution R n)}
    {advanceCopy : Cycle R n → Solving τ R n (Solution R n)}
    (rest : ∀ cycle other, cycle.CopiedBy c other →
      (advance cycle).InStep states Eq Eq (advanceCopy other)) (x : Vector R n) :
    (beginCycle system remaining advance x).InStep states Eq Eq
      (beginCycle copy remaining advanceCopy x) := by
  rw [beginCycle_eq, beginCycle_eq]
  refine (copied.residual x).bind ?_
  rintro r _ rfl
  have relative : copy.op.comm.norm r / copy.bNorm = system.op.comm.norm r / system.bNorm :=
    copied.relativeNorm_eq r
  dsimp only
  rw [relative, copied.status_eq, ← copied.tolerance_eq, ← copied.maxIterations_eq]
  refine Attempt.inStep_ite Iff.rfl (fun _ => Attempt.inStep_pure rfl) fun _ => ?_
  apply rest
  refine ⟨rfl, .nil, ?_, .nil, rfl, rfl, rfl, copied.reductions.norm_eq r⟩
  show Scaled c⁻¹ (divBy r (system.op.comm.norm r)) (divBy r (copy.op.comm.norm r))
  rw [copied.reductions.norm_eq]
  exact scaled_divBy r c _

/-- From cycles in step both runs come to one solution. -/
theorem advance_inStep [IsStrictOrderedRing R] (copied : system.CopiedBy states c copy)
    (restart remaining : Nat) {cycle other : Cycle R n} (same : cycle.CopiedBy c other) :
    (advance system restart remaining cycle).InStep states Eq Eq
      (advance copy restart remaining other) := by
  induction remaining generalizing cycle other with
  | zero =>
    rw [advance_zero, advance_zero, same.last_eq, copied.relative_eq, copied.status_eq,
      ← copied.maxIterations_eq, ← same.x_eq]
    exact Attempt.inStep_pure rfl
  | succ remaining ih =>
    rw [advance_succ, advance_succ, ← copied.maxIterations_eq]
    refine (step_inStep copied _ _ same).bind fun taken taken' after => ?_
    rw [isLast_eq copied after]
    refine Attempt.inStep_ite Iff.rfl (fun _ => ?_) fun _ => ih after.extend
    -- a new cycle begins from the corrected solution, where the factors have cancelled
    rw [after.cycle.finish_eq copied.reductions.positive.ne']
    exact beginCycle_inStep copied remaining (fun _ _ => ih) _

/-- Both runs solve the system alike. -/
theorem solve_inStep [IsStrictOrderedRing R] (copied : system.CopiedBy states c copy)
    (restart : Nat) (x : Vector R n) :
    (solve system restart x).InStep states Eq Eq (solve copy restart x) := by
  rw [solve_eq, solve_eq, ← copied.maxIterations_eq]
  exact beginCycle_inStep copied _ (fun _ _ => advance_inStep copied _ _) x

end MinimalResiduals

namespace KrylovSolver

variable {σ τ R : Type} [Field R] [LinearOrder R] [Roots R] [IsStrictOrderedRing R] {n : Nat}
  {states : σ → τ → Prop} {c : R} {op : Operator σ R n} {copy : Operator τ R n}
  {preconditioner : Option (Preconditioner σ R n)} {other : Option (Preconditioner τ R n)}

/-- Whatever the method, both runs come to one solution, or stop with one error at
one solution vector. -/
theorem solve_inStep (operators : op.InStepWith states copy)
    (reductions : op.comm.Multiplies copy.comm c n)
    (preconditioners : Option.Rel (Preconditioner.InStepWith states) preconditioner other)
    (solver : KrylovSolver R) (b x : Vector R n) :
    (solver.solve op preconditioner b x).InStep states Eq Eq (solver.solve copy other b x) := by
  have copied : (solver.systemOf op preconditioner b (op.comm.norm b)).CopiedBy states c
      (solver.systemOf copy other b (copy.comm.norm b)) :=
    ⟨reductions, operators, preconditioners, rfl, reductions.norm_eq b, rfl, rfl⟩
  rw [solve_eq, solve_eq]
  refine Attempt.inStep_ite (reductions.norm_beq_iff b) (fun _ => Attempt.inStep_pure rfl)
    fun _ => ?_
  unfold runMethod runMethodBy
  cases solver.method with
  | cg => exact ConjugateGradients.solve_inStep copied x
  | gmres restart => exact MinimalResiduals.solve_inStep copied restart x
  | bicgstab => exact BiconjugateGradients.solve_inStep copied x

/-- The same for vectors of any length. -/
theorem solveChecked_inStep (operators : op.InStepWith states copy)
    (reductions : op.comm.Multiplies copy.comm c n)
    (preconditioners : Option.Rel (Preconditioner.InStepWith states) preconditioner other)
    (solver : KrylovSolver R) (b x : Array R) :
    (solver.solveChecked op preconditioner b x).InStep states Eq Eq
      (solver.solveChecked copy other b x) := by
  unfold solveChecked solveCheckedBy
  rcases checkPair n b x with error | ⟨b, x⟩
  · exact Attempt.inStep_fail rfl
  · refine ((solve_inStep operators reductions preconditioners solver b x).mapError ?_).bind ?_
    · rintro halt _ rfl
      rfl
    · rintro solution _ rfl
      exact Attempt.inStep_pure rfl

end KrylovSolver

end HexSlab

import HexSlab.Proofs.Krylov.FiniteTermination
import HexSlab.Proofs.Krylov.MinimalCycles

/-!
# Minimal residuals end on nonsingular systems

If neither the operator nor the preconditioner takes a vector to zero, then the
image of the newest vector of a basis is never a combination of the images
before it, so a step finds a column whose end is not zero and does not break
down. A basis cannot outgrow its space: at the latest when it has as many
vectors as a vector has places, the remainder is zero, and then so is the
residual of the cycle. A cycle that is long enough ends with a solution that is
accepted.
-/

namespace HexSlab

open Vec LinearSystem

variable {σ R : Type} [Field R] {n : Nat}

/-- An exact system whose operator and preconditioner take no vector but zero to
zero. -/
structure LinearSystem.Nonsingular [LinearOrder R] [Roots R] (system : LinearSystem σ R n)
    (action inverse : (Fin n → R) →ₗ[R] (Fin n → R)) : Prop where
  /-- The system is exact. -/
  exact : system.Exact action
  /-- The preconditioner acts as a linear map. -/
  preconditions : system.Preconditions inverse
  /-- The operator takes no two vectors to one. -/
  action_injective : Function.Injective action
  /-- Nor does the preconditioner. -/
  inverse_injective : Function.Injective inverse

namespace MinimalResiduals

variable {action inverse : (Fin n → R) →ₗ[R] (Fin n → R)}

/-- The directions of a cycle are the vectors of its basis under a linear map. -/
def Cycle.Preconditioned (cycle : Cycle R n) (inverse : (Fin n → R) →ₗ[R] (Fin n → R)) : Prop :=
  cycle.directions.map entries = (cycle.basis.map entries).map inverse

variable [LinearOrder R] [Roots R] {cycle : Cycle R n} {b : Fin n → R}
  {frame : List (Fin n → R)} {left : Fin n → R} {system : LinearSystem σ R n}

/-- Every combination of the frame is the image of a combination of the basis. -/
theorem Cycle.Reduced.exists_combine_eq (reduced : cycle.Reduced action b frame left)
    (preconditioned : cycle.Preconditioned inverse) (rhs : List R) :
    ∃ coefficients, action (inverse (combine coefficients (cycle.basis.map entries))) =
      combine rhs frame := by
  refine ⟨backSubstitute cycle.columns rhs cycle.columns.length [], ?_⟩
  have directions : (cycle.directions.map entries).map action =
      cycle.columns.map fun column => combine column frame := by
    rw [List.map_map]
    exact reduced.images
  rw [map_combine, ← preconditioned, map_combine, directions]
  exact reduced.triangular.combine_backSubstitute rhs frame reduced.length_frame

/-- The image of the newest vector of a basis is no combination of the frame. -/
theorem Cycle.Ready.image_ne_combine (ready : cycle.Ready action b frame left)
    (preconditioned : cycle.Preconditioned inverse)
    (nonsingular : system.Nonsingular action inverse) (rhs : List R) :
    action (inverse (entries cycle.newest)) ≠ combine rhs frame := by
  intro same
  obtain ⟨coefficients, reached⟩ := ready.exists_combine_eq preconditioned rhs
  have repeated : entries cycle.newest = combine coefficients (cycle.basis.map entries) :=
    nonsingular.inverse_injective (nonsingular.action_injective (same.trans reached.symm))
  have orthonormal : IsOrthonormal (cycle.basis.map entries ++ [entries cycle.newest]) := by
    have whole := ready.orthonormal
    rw [vectors, List.map_append, List.map_singleton] at whole
    exact whole
  exact orthonormal.ne_combine coefficients repeated

/-- A basis that can take a step has fewer columns than a vector has places. -/
theorem Cycle.Ready.length_columns_lt (ready : cycle.Ready action b frame left) :
    cycle.columns.length < n := by
  have bound := ready.orthonormal.length_le
  rw [ready.turns.length_basis, ready.length_rotations] at bound
  exact bound

/-- An image by its parts: in the frame, along the vector that is left over, and
outside of the basis. -/
theorem Cycle.Reduced.image_eq (reduced : cycle.Reduced action b frame left)
    {image remainder : Vector R n} {column above : List R} {corner : R}
    (made : orthogonalize system (cycle.basis ++ [cycle.newest]) image = (column, remainder))
    (rotated : rotateColumn cycle.rotations (column.headD 0) column.tail = (above, corner)) :
    entries image = combine above frame + corner • left + entries remainder := by
  have parts := orthogonalize_eq system (cycle.basis ++ [cycle.newest]) image
  have size := length_orthogonalize system (cycle.basis ++ [cycle.newest]) image
  rw [made] at parts size
  cases column with
  | nil =>
    rw [List.length_append] at size
    cases size
  | cons upper rest =>
    have basis := reduced.turns.length_basis
    rw [Cycle.vectors, List.length_map] at basis
    have whole : rest.length = cycle.rotations.length :=
      Nat.succ.inj (size.trans basis)
    have turned := reduced.turns.combine_eq upper rest whole
    rw [List.headD_cons, List.tail_cons] at rotated
    rw [rotated] at turned
    rw [parts, ← turned]
    rfl

variable [IsStrictOrderedRing R]

/-- The end of the column of a step is not zero. -/
theorem Cycle.Ready.length_ne_zero (ready : cycle.Ready action (entries system.b) frame left)
    (nonsingular : system.Nonsingular action inverse) (roots : SquareRoots R)
    (hypotenuses : Hypotenuses R) (preconditioned : cycle.Preconditioned inverse)
    {image remainder : Vector R n}
    (known : entries image = action (inverse (entries cycle.newest)))
    {column above : List R} {corner : R}
    (made : orthogonalize system (cycle.basis ++ [cycle.newest]) image = (column, remainder))
    (rotated : rotateColumn cycle.rotations (column.headD 0) column.tail = (above, corner)) :
    Roots.hypot corner (system.op.comm.norm remainder) ≠ 0 := by
  intro vanishes
  have squares := hypotenuses corner (system.op.comm.norm remainder)
  rw [vanishes, mul_zero] at squares
  obtain ⟨upper, lower⟩ := mul_self_add_mul_self_eq_zero.mp squares.symm
  have gone : entries remainder = 0 := by
    rw [nonsingular.exact.alone, norm_serial] at lower
    exact (euclidean_eq_zero roots _).mp lower
  have parts := ready.image_eq made rotated
  rw [known, upper, gone, zero_smul, add_zero, add_zero] at parts
  exact ready.image_ne_combine preconditioned nonsingular above parts

/-- A step of a cycle does not break down. It adds a column and a direction, and
where the basis cannot be continued the last entry is zero. -/
theorem step_attains (nonsingular : system.Nonsingular action inverse) (roots : SquareRoots R)
    (hypotenuses : Hypotenuses R) (method : KrylovMethod) (iteration : Nat)
    (ready : cycle.Ready action (entries system.b) frame left)
    (preconditioned : cycle.Preconditioned inverse) :
    (step system method iteration cycle).Attains fun taken =>
      taken.extend.Preconditioned inverse ∧
        taken.cycle.columns.length = cycle.columns.length + 1 ∧
          (taken.next = 0 → taken.cycle.last = 0) := by
  rw [step_eq]
  refine (nonsingular.preconditions cycle.x cycle.newest).bind ?_
  intro z solved
  refine (nonsingular.exact.apply_attains cycle.x z).bind ?_
  intro image known
  rw [solved] at known
  rcases made : orthogonalize system (cycle.basis ++ [cycle.newest]) image with ⟨column, remainder⟩
  rcases rotated : rotateColumn cycle.rotations (column.headD 0) column.tail with ⟨above, corner⟩
  have nonzero := ready.length_ne_zero nonsingular roots hypotenuses preconditioned known made
    rotated
  dsimp only
  rw [rotated]
  dsimp only
  split
  · rename_i vanishes
    exact absurd (beq_iff_eq.mp vanishes) nonzero
  · apply Attempt.attains_pure
    refine ⟨?_, List.length_append, ?_⟩
    · show (cycle.directions ++ [z]).map entries =
        ((cycle.basis ++ [cycle.newest]).map entries).map inverse
      have before : cycle.directions.map entries = (cycle.basis.map entries).map inverse :=
        preconditioned
      rw [List.map_append, List.map_append, List.map_append, before, List.map_singleton,
        List.map_singleton, List.map_singleton, solved]
    · intro none
      have still : system.op.comm.norm remainder = 0 := none
      show -(system.op.comm.norm remainder / _) * cycle.last = 0
      rw [still, zero_div, neg_zero, zero_mul]

/-- A cycle that may have as many steps as a vector has places ends only where
its residual is small enough. -/
theorem Step.accepted {restart remaining : Nat} {taken : Step R n}
    (tolerant : 0 ≤ system.tolerance) (long : n ≤ restart) (enough : n ≤ system.maxIterations)
    (count : taken.cycle.columns.length + remaining = system.maxIterations)
    (continued : taken.next ≠ 0 → taken.extend.Ready action b frame left)
    (exhausted : taken.next = 0 → taken.cycle.last = 0)
    (last : taken.isLast system restart remaining = true) :
    |taken.cycle.last| / system.bNorm ≤ system.tolerance := by
  by_cases none : taken.next = 0
  · rw [exhausted none, abs_zero, zero_div]
    exact tolerant
  have short : taken.cycle.columns.length < n := (continued none).length_columns_lt
  have notOut : remaining ≠ 0 := by omega
  have notLong : ¬restart ≤ taken.cycle.columns.length := by omega
  simp only [Step.isLast, none, notOut, notLong, beq_iff_eq, decide_false, Bool.or_false,
    Bool.or_eq_true, decide_eq_true_eq, or_false] at last
  exact last

/-- A solve goes on from the end of a cycle by accepting the solution, if the
last entry says that its residual is small enough. -/
theorem beginCycle_attains_of_accepted (exact : system.Exact action) (roots : SquareRoots R)
    {taken : Step R n} (reduced : taken.extend.Reduced action (entries system.b) frame left)
    (accepted : |taken.cycle.last| / system.bNorm ≤ system.tolerance) (remaining : Nat)
    (advance : Cycle R n → Solving σ R n (Solution R n))
    (within : system.maxIterations - remaining ≤ n) :
    (beginCycle system remaining advance taken.cycle.finish).Attains fun solution =>
      solution.status.ConvergedWithin n := by
  rw [beginCycle_eq]
  refine (exact.residual_attains taken.cycle.finish).bind ?_
  intro r follows
  have measured := (Step.minimizes reduced roots).measured
  have small : system.op.comm.norm r / system.bNorm ≤ system.tolerance := by
    show system.relativeNorm r ≤ system.tolerance
    rw [follows.relativeNorm_eq exact, measured, ← exact.bNorm_eq]
    exact accepted
  dsimp only
  rw [if_pos (Or.inl small)]
  exact Attempt.attains_pure ⟨decide_eq_true small, within⟩

/-- The steps of a cycle that is long enough end with a solution that converged. -/
theorem advance_attains (nonsingular : system.Nonsingular action inverse) (roots : SquareRoots R)
    (hypotenuses : Hypotenuses R) (tolerant : 0 ≤ system.tolerance) {restart : Nat}
    (long : n ≤ restart) (enough : n ≤ system.maxIterations) (remaining : Nat) {cycle : Cycle R n}
    {frame : List (Fin n → R)} {left : Fin n → R}
    (ready : cycle.Ready action (entries system.b) frame left)
    (preconditioned : cycle.Preconditioned inverse)
    (count : cycle.columns.length + remaining = system.maxIterations) :
    (advance system restart remaining cycle).Attains fun solution =>
      solution.status.ConvergedWithin n := by
  have short := ready.length_columns_lt
  -- by induction on the steps left: each step adds a column, of which there are fewer than
  -- places, so the steps cannot run out
  induction remaining generalizing cycle frame left with
  | zero => omega
  | succ remaining ih =>
    rw [advance_succ]
    refine Attempt.Attains.bind
      ((step_attains nonsingular roots hypotenuses _ _ ready preconditioned).and
        (step_yields nonsingular.exact roots hypotenuses _ _ ready)) ?_
    rintro taken ⟨⟨directed, grown, exhausted⟩, -, frame, left, reduced, continued⟩
    have counted : taken.cycle.columns.length + remaining = system.maxIterations := by omega
    split
    · rename_i last
      have accepted := Step.accepted tolerant long enough counted continued exhausted last
      exact beginCycle_attains_of_accepted nonsingular.exact roots reduced accepted remaining _
        (by omega)
    · rename_i goesOn
      have next := continued (Step.next_ne_zero goesOn)
      exact ih next directed counted next.length_columns_lt

/-- Minimal residuals converge within as many steps as a vector has places. -/
theorem solve_attains (nonsingular : system.Nonsingular action inverse) (roots : SquareRoots R)
    (hypotenuses : Hypotenuses R) (tolerant : 0 ≤ system.tolerance) {restart : Nat}
    (long : n ≤ restart) (enough : n ≤ system.maxIterations) (x : Vector R n) :
    (solve system restart x).Attains fun solution => solution.status.ConvergedWithin n := by
  rw [solve_eq, beginCycle_eq]
  refine (nonsingular.exact.residual_attains x).bind ?_
  intro r follows
  dsimp only
  by_cases small : system.op.comm.norm r / system.bNorm ≤ system.tolerance
  · rw [if_pos (Or.inl small)]
    refine Attempt.attains_pure ⟨decide_eq_true small, ?_⟩
    show system.maxIterations - system.maxIterations ≤ n
    omega
  · have ready := Cycle.ready_start nonsingular.exact roots follows (norm_ne_zero tolerant small)
    have short := ready.length_columns_lt
    have left : system.maxIterations ≠ 0 := by omega
    rw [if_neg (not_or.mpr ⟨small, left⟩)]
    exact advance_attains nonsingular roots hypotenuses tolerant
      (long.trans (le_max_left restart 1)) enough system.maxIterations ready rfl (Nat.zero_add _)

end MinimalResiduals

namespace KrylovSolver

variable [LinearOrder R] [Roots R] [IsStrictOrderedRing R]
  {action : (Fin n → R) →ₗ[R] (Fin n → R)}

/-- A solve with minimal residuals of vectors that fit converges within as many
steps as a vector has places. -/
theorem gmres_attains (solver : KrylovSolver R) {restart : Nat} (op : Operator σ R n)
    (preconditioner : Option (Preconditioner σ R n)) (b x : Vector R n)
    (chosen : solver.method = .gmres restart) (roots : SquareRoots R)
    (hypotenuses : Hypotenuses R) (alone : op.comm = .serial) (linear : op.Realizes action)
    (nonsingular : Function.Injective action)
    (preconditioned : ∀ given ∈ preconditioner, ∃ inverse : (Fin n → R) →ₗ[R] (Fin n → R),
      Function.Injective inverse ∧ given.Realizes inverse)
    (tolerant : 0 ≤ solver.tolerance) (long : n ≤ restart) (enough : n ≤ solver.maxIterations) :
    (solver.solve op preconditioner b x).Attains fun solution =>
      solution.status.ConvergedWithin n := by
  rw [solve_eq]
  split
  · exact Attempt.attains_pure ⟨rfl, Nat.zero_le n⟩
  · rename_i remains
    have nonzero : entries b ≠ 0 := by
      intro zero
      apply remains
      rw [alone, norm_serial, (euclidean_eq_zero roots _).mpr zero]
      exact beq_self_eq_true 0
    have identity : Function.Injective (LinearMap.id : (Fin n → R) →ₗ[R] (Fin n → R)) :=
      Function.injective_id
    obtain ⟨inverse, invertible, preconditions⟩ :=
      exists_preconditions identity (solver.systemOf op preconditioner b (op.comm.norm b))
        preconditioned
    rw [chosen]
    have exact := solver.systemOf_exact preconditioner alone linear nonzero
    exact MinimalResiduals.solve_attains ⟨exact, preconditions, nonsingular, invertible⟩ roots
      hypotenuses tolerant long enough x

/-- Minimal residuals end on nonsingular systems. In exact arithmetic on one
process, for every nonsingular operator, without a preconditioner or with one
that is an invertible linear map, for every right-hand side, start and
tolerance: if a cycle may have as many steps as a vector has places, and as many
are allowed in all, a solve succeeds and converges within that many steps. -/
theorem gmres_converges_within_dimension (solver : KrylovSolver R) (restart : Nat)
    (op : Operator σ R n) (preconditioner : Option (Preconditioner σ R n)) (b x : Vector R n)
    (action : (Fin n → R) →ₗ[R] (Fin n → R)) (chosen : solver.method = .gmres restart)
    (roots : SquareRoots R) (hypotenuses : Hypotenuses R) (alone : op.comm = .serial)
    (linear : op.Realizes action) (nonsingular : Function.Injective action)
    (preconditioned : ∀ given ∈ preconditioner, ∃ inverse : (Fin n → R) →ₗ[R] (Fin n → R),
      Function.Injective inverse ∧ given.Realizes inverse)
    (tolerant : 0 ≤ solver.tolerance) (long : n ≤ restart) (enough : n ≤ solver.maxIterations) :
    (solver.solveChecked op preconditioner b.toArray x.toArray).Attains fun result =>
      result.2.ConvergedWithin n := by
  have fits : checkPair n b.toArray x.toArray = .ok (b, x) := checkPair_eq_ok_iff.mpr ⟨rfl, rfl⟩
  have ends := solver.gmres_attains op preconditioner b x chosen roots hypotenuses alone linear
    nonsingular preconditioned tolerant long enough
  unfold solveChecked solveCheckedBy
  rw [fits]
  refine (ends.mapError _).bind ?_
  intro solution within
  exact Attempt.attains_pure within

/-- A cyclic shift of three places, where no step but the last makes the residual
shorter, with a scaling as its preconditioner. -/
theorem gmres_converges_within_dimension_shift :
    ((⟨.gmres 3, 3, 0⟩ : KrylovSolver ℝ).solveChecked
      (Operator.ofAction (LinearMap.funLeft ℝ ℝ (finRotate 3)) Nat)
      (some (Preconditioner.ofAction (diagonal ![3, 5, 2]) Nat)) #[1, 0, 0] #[0, 0, 0]).Attains
      fun result => result.2.ConvergedWithin 3 := by
  have shift : Function.Injective (LinearMap.funLeft ℝ ℝ (finRotate 3)) :=
    LinearMap.funLeft_injective_of_surjective ℝ ℝ _ (finRotate 3).surjective
  have scaling : Function.Injective (diagonal (![3, 5, 2] : Fin 3 → ℝ)) := by
    intro u v same
    funext i
    have entry : ![3, 5, 2] i * u i = ![3, 5, 2] i * v i := congrFun same i
    have nonzero : (![3, 5, 2] i : ℝ) ≠ 0 := by fin_cases i <;> norm_num
    exact mul_left_cancel₀ nonzero entry
  refine gmres_converges_within_dimension ⟨.gmres 3, 3, 0⟩ 3 _ _ #v[1, 0, 0] #v[0, 0, 0]
    (LinearMap.funLeft ℝ ℝ (finRotate 3)) rfl squareRoots_real hypotenuses_real rfl
    (Operator.realizes_ofAction _ Nat) shift ?_ le_rfl le_rfl le_rfl
  intro given chosen
  rw [← Option.some.inj chosen]
  exact ⟨diagonal ![3, 5, 2], scaling, Preconditioner.realizes_ofAction _ Nat⟩

end KrylovSolver

end HexSlab

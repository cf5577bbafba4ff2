import HexSlab.Proofs.Krylov.CycleSteps
import HexSlab.Proofs.Krylov.TrueResidual

/-!
# Every cycle minimizes the residual

At the end of a cycle the coefficients take away the settled part of the
residual, which is all that the directions can reach. What remains is orthogonal
to it and as long as the last entry, so no other combination of the directions
does better. A solve goes from cycle to cycle, and its residual never grows.
-/

namespace HexSlab.MinimalResiduals

open Vec

variable {σ R : Type} [Field R] {n : Nat}

/-- The combination of vectors as a sum. -/
theorem combine_map_entries (coefficients : List R) (vectors : List (Vector R n)) :
    combine coefficients (vectors.map entries) =
      ∑ i : Fin vectors.length, coefficients.getD i 0 • entries (vectors.get i) := by
  have entry (i : Fin vectors.length) :
      (vectors.map entries).getD i 0 = entries (vectors.get i) := by
    have inside : i < (vectors.map (entries : Vector R n → Fin n → R)).length := by
      rw [List.length_map]
      exact i.isLt
    rw [List.getD_eq_getElem _ _ inside, List.getElem_map]
    rfl
  rw [combine_eq_sum, List.length_map, Finset.sum_range]
  simp only [entry]

variable [LinearOrder R] [Roots R]

/-- A corrected solution is moved by a combination of the directions. -/
theorem entries_correct (x : Vector R n) (coefficients : List R) (directions : List (Vector R n)) :
    entries (correct x coefficients directions) =
      entries x + combine coefficients (directions.map entries) := by
  induction directions generalizing x coefficients with
  | nil =>
    have stays : correct x coefficients [] = x := by
      cases coefficients with
      | nil => rfl
      | cons first coefficients => rfl
    rw [stays, List.map_nil, combine_nil_right, add_zero]
  | cons z directions ih =>
    cases coefficients with
    | nil =>
      have stays : correct x [] (z :: directions) = x := rfl
      rw [stays, combine_nil, add_zero]
    | cons first coefficients =>
      rw [correct, ih, entries_axpy, List.map_cons, combine_cons, one_smul, add_comm (first • _),
        add_assoc]

/-- The solution at the end of a cycle has the smallest residual that the cycle
can reach. -/
structure Cycle.Minimizes (cycle : Cycle R n) (action : (Fin n → R) →ₗ[R] (Fin n → R))
    (b : Fin n → R) : Prop where
  /-- The residual is as long as the last entry says. -/
  measured : euclidean (b - action (entries cycle.finish)) = |cycle.last|
  /-- It is no longer than at the start of the cycle. -/
  improves : euclidean (b - action (entries cycle.finish)) ≤
    euclidean (b - action (entries cycle.x))
  /-- The solution was moved by a combination of the directions. -/
  reached : ∃ c : Fin cycle.directions.length → R,
    entries cycle.finish = entries cycle.x + ∑ i, c i • entries (cycle.directions.get i)
  /-- No combination leads to a shorter residual. -/
  least : ∀ c : Fin cycle.directions.length → R,
    euclidean (b - action (entries cycle.finish)) ≤
      euclidean (b - action (entries cycle.x + ∑ i, c i • entries (cycle.directions.get i)))

namespace Cycle.Reduced

variable {cycle : Cycle R n} {action : (Fin n → R) →ₗ[R] (Fin n → R)} {b : Fin n → R}
  {frame : List (Fin n → R)} {left : Fin n → R}

/-- The residual after any correction: a part in the frame and the part that is
left over. -/
theorem residual_combine (reduced : cycle.Reduced action b frame left) (coefficients : List R) :
    b - action (entries cycle.x + combine coefficients (cycle.directions.map entries)) =
      combine cycle.settled frame -
          combine coefficients (cycle.columns.map fun column => combine column frame) +
        cycle.last • left := by
  have images : (cycle.directions.map entries).map action =
      cycle.columns.map fun column => combine column frame := by
    rw [List.map_map]
    exact reduced.images
  rw [map_add, map_combine, images, sub_add_eq_sub_sub, reduced.residual_eq, add_sub_right_comm]

/-- The coefficients at the end of a cycle settle the part in the frame. -/
theorem combine_coefficients (reduced : cycle.Reduced action b frame left) :
    combine cycle.coefficients (cycle.columns.map fun column => combine column frame) =
      combine cycle.settled frame :=
  reduced.triangular.combine_backSubstitute cycle.settled frame reduced.length_frame

/-- The residual at the end of a cycle is what is left over. -/
theorem residual_finish (reduced : cycle.Reduced action b frame left) :
    b - action (entries cycle.finish) = cycle.last • left := by
  rw [Cycle.finish, entries_correct, reduced.residual_combine, reduced.combine_coefficients,
    sub_self, zero_add]

/-- The part in the frame is orthogonal to the part that is left over. -/
theorem combine_dotProduct_left (reduced : cycle.Reduced action b frame left)
    (coefficients : List R) :
    (combine cycle.settled frame -
        combine coefficients (cycle.columns.map fun column => combine column frame)) ⬝ᵥ
      (cycle.last • left) = 0 := by
  have column (v : Fin n → R)
      (member : v ∈ cycle.columns.map fun column => combine column frame) : left ⬝ᵥ v = 0 := by
    obtain ⟨entries, _, made⟩ := List.mem_map.mp member
    rw [← made]
    exact dotProduct_combine_eq_zero left entries frame reduced.turns.orthogonal
  rw [dotProduct_comm, smul_dotProduct, dotProduct_sub,
    dotProduct_combine_eq_zero left _ frame reduced.turns.orthogonal,
    dotProduct_combine_eq_zero left _ _ column, sub_self, smul_zero]

variable [IsStrictOrderedRing R]

/-- No correction leads to a shorter residual than that at the end of the cycle. -/
theorem finish_le (reduced : cycle.Reduced action b frame left) (roots : SquareRoots R)
    (coefficients : List R) :
    euclidean (b - action (entries cycle.finish)) ≤
      euclidean
        (b - action (entries cycle.x + combine coefficients (cycle.directions.map entries))) := by
  rw [reduced.residual_finish, reduced.residual_combine]
  exact euclidean_le_add roots (reduced.combine_dotProduct_left coefficients)

/-- A cycle whose data holds in a frame ends with the smallest residual. -/
theorem minimizes (reduced : cycle.Reduced action b frame left) (roots : SquareRoots R) :
    cycle.Minimizes action b where
  measured := by
    rw [reduced.residual_finish]
    refine euclidean_eq_abs roots ?_
    rw [smul_dotProduct, dotProduct_smul, smul_eq_mul, smul_eq_mul, ← mul_assoc,
      reduced.last_square]
  improves := by
    have still := reduced.finish_le roots []
    rw [combine_nil, add_zero] at still
    exact still
  reached := by
    refine ⟨fun i => cycle.coefficients.getD i 0, ?_⟩
    rw [Cycle.finish, entries_correct, combine_map_entries]
  least := by
    intro c
    have other := reduced.finish_le roots (List.ofFn c)
    have same (i : Fin cycle.directions.length) : (List.ofFn c).getD i 0 = c i := by
      rw [List.getD_eq_getElem _ _ (by rw [List.length_ofFn]; exact i.isLt), List.getElem_ofFn]
    rw [combine_map_entries] at other
    simp only [same] at other
    exact other

end Cycle.Reduced

/-- The steps of a cycle up to its last one, out of at most `remaining + 1`, and
how many are left then. -/
def runCycle (system : LinearSystem σ R n) (restart : Nat) :
    Nat → Cycle R n → Solving σ R n (Step R n × Nat)
  | 0, cycle => do
    let taken ← step system (.gmres restart) system.maxIterations cycle
    pure (taken, 0)
  | remaining + 1, cycle => do
    let taken ← step system (.gmres restart) (system.maxIterations - (remaining + 1)) cycle
    if taken.isLast system restart (remaining + 1) then pure (taken, remaining + 1)
    else runCycle system restart remaining taken.extend

/-- A solve with steps left runs a cycle to its end and goes on from its
solution. -/
theorem advance_eq_runCycle (system : LinearSystem σ R n) (restart remaining : Nat)
    (cycle : Cycle R n) :
    advance system restart (remaining + 1) cycle =
      runCycle system restart remaining cycle >>= fun ended =>
        beginCycle system ended.2 (advance system restart ended.2) ended.1.cycle.finish := by
  induction remaining generalizing cycle with
  | zero =>
    have last (taken : Step R n) : taken.isLast system restart 0 = true := by
      simp only [Step.isLast, beq_self_eq_true, Bool.or_true, Bool.true_or]
    rw [advance_succ, runCycle, bind_assoc]
    refine bind_congr fun taken => ?_
    rw [pure_bind, last, if_pos rfl]
  | succ remaining ih =>
    rw [advance_succ, runCycle, bind_assoc]
    refine bind_congr fun taken => ?_
    by_cases last : taken.isLast system restart (remaining + 1) = true
    · rw [if_pos last, if_pos last, pure_bind]
    · rw [if_neg last, if_neg last]
      exact ih taken.extend

/-- A step that is not the last of its cycle leaves a remainder to continue the
basis with. -/
theorem Step.next_ne_zero {system : LinearSystem σ R n} {restart remaining : Nat}
    {taken : Step R n} (goesOn : ¬taken.isLast system restart remaining = true) :
    taken.next ≠ 0 := by
  intro none
  apply goesOn
  simp only [Step.isLast, none, beq_self_eq_true, Bool.or_true, Bool.true_or]

variable {system : LinearSystem σ R n} {action : (Fin n → R) →ₗ[R] (Fin n → R)}

/-- A residual that is not accepted has a norm to divide by. -/
theorem norm_ne_zero (tolerant : 0 ≤ system.tolerance) {r : Vector R n}
    (refused : ¬system.relativeNorm r ≤ system.tolerance) : system.op.comm.norm r ≠ 0 := by
  intro none
  rw [LinearSystem.relativeNorm, none, zero_div] at refused
  exact refused tolerant

/-- A solve of a system goes from cycle to cycle, and each cycle minimizes the
residual. -/
structure MinimizingCycles (system : LinearSystem σ R n) (restart : Nat)
    (action : (Fin n → R) →ₗ[R] (Fin n → R)) : Prop where
  /-- With steps left, a cycle runs to its end and the solve goes on from its
  solution. -/
  in_turn : ∀ remaining cycle, advance system restart (remaining + 1) cycle =
    runCycle system restart remaining cycle >>= fun ended =>
      beginCycle system ended.2 (advance system restart ended.2) ended.1.cycle.finish
  /-- A cycle that starts from a solution minimizes the residual. -/
  minimizes : ∀ (x r : Vector R n) (remaining : Nat), system.IsResidual action x r →
    ¬system.relativeNorm r ≤ system.tolerance →
    (runCycle system restart remaining (.start x r (system.op.comm.norm r))).Yields fun ended =>
      ended.1.cycle.x = x ∧ ended.1.cycle.Minimizes action (entries system.b)

/-- Where the norm of the right-hand side is zero no cycle starts. -/
theorem minimizingCycles_of_bNorm_eq_zero (tolerant : 0 ≤ system.tolerance)
    (zero : system.bNorm = 0) (restart : Nat) : MinimizingCycles system restart action where
  in_turn := advance_eq_runCycle system restart
  minimizes := by
    intro x r remaining _ refused
    rw [LinearSystem.relativeNorm, zero, div_zero] at refused
    exact absurd tolerant refused

variable [IsStrictOrderedRing R]

/-- A cycle that a step ends minimizes the residual: the vector that would
extend its basis plays no part. -/
theorem Step.minimizes {taken : Step R n} {b : Fin n → R} {frame : List (Fin n → R)}
    {left : Fin n → R} (reduced : taken.extend.Reduced action b frame left)
    (roots : SquareRoots R) : taken.cycle.Minimizes action b :=
  have minimizes := reduced.minimizes roots
  ⟨minimizes.measured, minimizes.improves, minimizes.reached, minimizes.least⟩

/-- A cycle that is ready runs to an end where it minimizes the residual. -/
theorem runCycle_yields (exact : system.Exact action) (roots : SquareRoots R)
    (hypotenuses : Hypotenuses R) (restart remaining : Nat) {cycle : Cycle R n}
    {frame : List (Fin n → R)} {left : Fin n → R}
    (ready : cycle.Ready action (entries system.b) frame left) :
    (runCycle system restart remaining cycle).Yields fun ended =>
      ended.2 ≤ remaining ∧ ended.1.cycle.x = cycle.x ∧
        ended.1.cycle.Minimizes action (entries system.b) := by
  induction remaining generalizing cycle frame left with
  | zero =>
    rw [runCycle]
    refine (step_yields exact roots hypotenuses _ _ ready).bind ?_
    rintro taken ⟨same, frame, left, reduced, -⟩
    exact Attempt.yields_pure ⟨le_rfl, same, Step.minimizes reduced roots⟩
  | succ remaining ih =>
    rw [runCycle]
    refine (step_yields exact roots hypotenuses _ _ ready).bind ?_
    rintro taken ⟨same, frame, left, reduced, continued⟩
    split
    · exact Attempt.yields_pure ⟨le_rfl, same, Step.minimizes reduced roots⟩
    · rename_i goesOn
      refine (ih (continued (Step.next_ne_zero goesOn))).mono ?_
      rintro ended ⟨fewer, kept, minimizes⟩
      exact ⟨Nat.le_succ_of_le fewer, kept.trans same, minimizes⟩

/-- A solve that goes on from a solution does not make its residual longer. -/
theorem beginCycle_yields_le (exact : system.Exact action) (roots : SquareRoots R)
    (hypotenuses : Hypotenuses R) (tolerant : 0 ≤ system.tolerance) (restart remaining : Nat)
    (x : Vector R n) :
    (beginCycle system remaining (advance system restart remaining) x).Yields fun solution =>
      solution.status.relativeResidual ≤
        euclidean (entries system.b - action (entries x)) / euclidean (entries system.b) := by
  -- a cycle may take several of the steps that are left
  induction remaining using Nat.strong_induction_on generalizing x with
  | _ remaining ih =>
    rw [beginCycle_eq]
    refine (exact.residual_yields x).bind ?_
    intro r follows
    dsimp only
    split
    · apply Attempt.yields_pure
      exact (follows.relativeNorm_eq exact).le
    · rename_i goesOn
      have remains := norm_ne_zero tolerant fun accepted => goesOn (Or.inl accepted)
      have left : remaining ≠ 0 := fun none => goesOn (Or.inr none)
      obtain ⟨fewer, more⟩ := Nat.exists_eq_succ_of_ne_zero left
      have ready := Cycle.ready_start exact roots follows remains
      rw [more, Nat.succ_eq_add_one, advance_eq_runCycle]
      refine (runCycle_yields exact roots hypotenuses restart fewer ready).bind ?_
      rintro ended ⟨bound, same, minimizes⟩
      have improves := minimizes.improves
      rw [same] at improves
      have below : ended.2 < remaining := by omega
      refine (ih ended.2 below ended.1.cycle.finish).mono ?_
      intro solution bounded
      exact bounded.trans (div_le_div_of_nonneg_right improves (euclidean_nonneg roots _))

/-- The cycles of an exact system minimize the residual. -/
theorem minimizingCycles (exact : system.Exact action) (roots : SquareRoots R)
    (hypotenuses : Hypotenuses R) (tolerant : 0 ≤ system.tolerance) (restart : Nat) :
    MinimizingCycles system restart action where
  in_turn := advance_eq_runCycle system restart
  minimizes := by
    intro x r remaining follows refused
    have ready := Cycle.ready_start exact roots follows (norm_ne_zero tolerant refused)
    refine (runCycle_yields exact roots hypotenuses restart remaining ready).mono ?_
    rintro ended ⟨-, same, minimizes⟩
    exact ⟨same, minimizes⟩

end HexSlab.MinimalResiduals

namespace HexSlab.KrylovSolver

open Vec MinimalResiduals

variable {σ R : Type} [Field R] [LinearOrder R] [Roots R] {n : Nat}
  {action : (Fin n → R) →ₗ[R] (Fin n → R)}

/-- The system of a solver is exact unless its right-hand side is zero. -/
theorem systemOf_exact (solver : KrylovSolver R) {op : Operator σ R n}
    (preconditioner : Option (Preconditioner σ R n)) {b : Vector R n}
    (alone : op.comm = .serial) (linear : op.Realizes action) (nonzero : entries b ≠ 0) :
    (solver.systemOf op preconditioner b (op.comm.norm b)).Exact action where
  alone := alone
  linear := linear
  bNorm_eq := by
    show op.comm.norm b = euclidean (entries b)
    rw [alone, norm_serial]
  nonzero := nonzero

variable [IsStrictOrderedRing R]

/-- A solve with minimal residuals of vectors that fit does not make the
residual longer. -/
theorem solve_yields_le (solver : KrylovSolver R) {restart : Nat} (op : Operator σ R n)
    (preconditioner : Option (Preconditioner σ R n)) (b x : Vector R n)
    (chosen : solver.method = .gmres restart) (roots : SquareRoots R)
    (hypotenuses : Hypotenuses R) (alone : op.comm = .serial) (linear : op.Realizes action)
    (tolerant : 0 ≤ solver.tolerance) (nonzero : entries b ≠ 0) :
    (solver.solve op preconditioner b x).Yields fun solution =>
      solution.status.relativeResidual ≤
        euclidean (entries b - action (entries x)) / euclidean (entries b) := by
  have exact := solver.systemOf_exact preconditioner alone linear nonzero
  rw [solve_eq]
  split
  · rename_i none
    have zero : euclidean (entries b) = 0 := by
      rw [← norm_serial, ← alone]
      exact beq_iff_eq.mp none
    exact absurd ((euclidean_eq_zero roots _).mp zero) nonzero
  · rw [chosen]
    exact beginCycle_yields_le exact roots hypotenuses tolerant (max restart 1) _ x

/-- Every cycle of minimal residuals minimizes the residual. In exact arithmetic
on one process, for every linear operator, every preconditioner, right-hand
side, start, tolerance and number of steps to a restart: a cycle ends with a
residual as long as its last entry, no longer than that of its start or of any
other combination of its directions. So a solve that succeeds reports a residual
that is no longer than that of the start, unless the right-hand side is zero. -/
theorem gmres_cycles_minimize_residual (solver : KrylovSolver R) (restart : Nat)
    (op : Operator σ R n) (preconditioner : Option (Preconditioner σ R n)) (b : Vector R n)
    (action : (Fin n → R) →ₗ[R] (Fin n → R)) (chosen : solver.method = .gmres restart)
    (roots : SquareRoots R) (hypotenuses : Hypotenuses R) (alone : op.comm = .serial)
    (linear : op.Realizes action) (tolerant : 0 ≤ solver.tolerance) :
    MinimizingCycles (solver.systemOf op preconditioner b (op.comm.norm b)) (max restart 1)
        action ∧
      (entries b ≠ 0 → ∀ x : Vector R n,
        (solver.solveChecked op preconditioner b.toArray x.toArray).Yields fun result =>
          result.2.relativeResidual ≤
            euclidean (entries b - action (entries x)) / euclidean (entries b)) := by
  constructor
  · by_cases zero : entries b = 0
    · refine minimizingCycles_of_bNorm_eq_zero tolerant ?_ (max restart 1)
      show op.comm.norm b = 0
      rw [alone, norm_serial, (euclidean_eq_zero roots _).mpr zero]
    · have exact := solver.systemOf_exact preconditioner alone linear zero
      exact minimizingCycles exact roots hypotenuses tolerant (max restart 1)
  · intro nonzero x
    have fits : checkPair n b.toArray x.toArray = .ok (b, x) := checkPair_eq_ok_iff.mpr ⟨rfl, rfl⟩
    have improves := solver.solve_yields_le op preconditioner b x chosen roots hypotenuses alone
      linear tolerant nonzero
    unfold solveChecked solveCheckedBy
    rw [fits]
    refine (improves.mapError _).bind ?_
    intro solution bounded
    exact Attempt.yields_pure bounded

/-- Cycles of two steps with a preconditioner that answers each call with a
larger multiple. -/
theorem gmres_cycles_minimize_residual_growing :
    let growing : Preconditioner Nat ℝ 2 :=
      ⟨fun r _ calls => (.ok (r.map (((calls + 1 : Nat) : ℝ) * ·)), calls + 1)⟩
    let solver : KrylovSolver ℝ := ⟨.gmres 2, 6, 0⟩
    let op := Operator.ofAction (diagonal ![2, 1]) Nat
    MinimizingCycles (solver.systemOf op (some growing) #v[3, 4] (op.comm.norm #v[3, 4])) 2
        (diagonal ![2, 1]) ∧
      (solver.solveChecked op (some growing) #[3, 4] #[1, 0]).Yields fun result =>
        result.2.relativeResidual ≤
          euclidean (entries #v[3, 4] - diagonal ![2, 1] (entries #v[1, 0])) /
            euclidean (entries #v[(3 : ℝ), 4]) := by
  intro growing solver op
  have nonzero : entries #v[(3 : ℝ), 4] ≠ 0 := by
    intro zero
    have first : (3 : ℝ) = 0 := congrFun zero 0
    exact three_ne_zero first
  have both := gmres_cycles_minimize_residual solver 2 op (some growing) #v[3, 4]
    (diagonal ![2, 1]) rfl squareRoots_real hypotenuses_real rfl
    (Operator.realizes_ofAction _ Nat) le_rfl
  exact ⟨both.1, both.2 nonzero #v[1, 0]⟩

end HexSlab.KrylovSolver

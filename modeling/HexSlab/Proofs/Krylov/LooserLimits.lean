import HexSlab.Proofs.Exact
import HexSlab.Proofs.Krylov.PlainDivision
import HexSlab.Proofs.Matches

/-!
# Looser limits keep convergence

The tolerance and the limit of a solve decide when it stops, and nothing else. A solve
with a larger tolerance and a larger limit therefore takes the steps of the stricter one
for as long as it goes on, meets the same breakdown checks with the same numbers, and
stops where the stricter one converges or before. The operator and the preconditioner
only have to repeat their answers; the arithmetic may be any in which the comparison of
residuals with tolerances is transitive.
-/

namespace HexSlab

open Attempt

variable {σ R : Type} {n : Nat}

/-- An operator repeats its answers in states of the run that agree, and leaves such
states. -/
def Operator.Repeats (op : Operator σ R n) (states : σ → σ → Prop) : Prop :=
  ∀ v, Attempt.InStep states Eq Eq (op.apply v) (op.apply v)

/-- A preconditioner repeats its answers in states of the run that agree, and leaves such
states. -/
def Preconditioner.Repeats (preconditioner : Preconditioner σ R n) (states : σ → σ → Prop) :
    Prop :=
  ∀ r y, Attempt.InStep states Eq Eq (preconditioner.applyInverse r y)
    (preconditioner.applyInverse r y)

/-- A solve has converged. -/
abbrev Solution.Converged (solution : Solution R n) : Prop := solution.status.converged = true

/-- What another solve makes of a converged solution: it converges as well, in no more
iterations, and with the same solution if it is the same in some sense. -/
structure Solution.KeptBy (same : Prop) (solution found : Solution R n) : Prop where
  /-- The other solve converges. -/
  converged : found.Converged
  /-- It takes no more iterations. -/
  iterations : found.status.iterations ≤ solution.status.iterations
  /-- Its solution is equal, with an equal status. -/
  equal : same → found = solution

/-- A solve that has reached an iteration without convergence does not converge before. -/
def Solution.ConvergesFrom (iteration : Nat) (solution : Solution R n) : Prop :=
  solution.Converged → iteration ≤ solution.status.iterations

/-- Nor before the iteration that it comes from. -/
theorem Solution.ConvergesFrom.of_succ {iteration : Nat} {solution : Solution R n}
    (later : ConvergesFrom (iteration + 1) solution) : ConvergesFrom iteration solution :=
  fun converged => Nat.le_of_succ_le (later converged)

namespace LinearSystem

/-- A system with other limits. -/
def loosened (system : LinearSystem σ R n) (maxIterations : Nat) (tolerance : R) :
    LinearSystem σ R n :=
  { system with maxIterations := maxIterations, tolerance := tolerance }

variable {system : LinearSystem σ R n} {states : σ → σ → Prop}

/-- What a system works with repeats its answers. -/
structure Repeats (system : LinearSystem σ R n) (states : σ → σ → Prop) : Prop where
  /-- The operator does. -/
  op : system.op.Repeats states
  /-- The preconditioner does, if there is one. -/
  preconditioner : ∀ preconditioner ∈ system.preconditioner, preconditioner.Repeats states

/-- Products are repeated. -/
theorem Repeats.apply (repeats : system.Repeats states) (x v : Vector R n) :
    Attempt.InStep states Eq Eq (system.apply x v) (system.apply x v) :=
  (repeats.op v).mapError fun _ _ same => same ▸ rfl

/-- What is left of a stricter solve and of a looser one at the head of an iteration: the
stricter one converges in this iteration or later, and the looser one keeps that. -/
structure KeepsFrom (system : LinearSystem σ R n) (tolerance : R) (states : σ → σ → Prop)
    (iteration : Nat) (left right : Solving σ R n (Solution R n)) : Prop where
  /-- It is too late to converge before. -/
  later : left.Yields (Solution.ConvergesFrom iteration)
  /-- A convergence is kept. -/
  found : Matches states Solution.Converged (Solution.KeptBy (tolerance = system.tolerance))
    left right

variable {tolerance : R} {iteration : Nat} {left right : Solving σ R n (Solution R n)}

/-- What is left after an iteration is left at its head. -/
theorem KeepsFrom.of_succ (keeps : system.KeepsFrom tolerance states (iteration + 1) left right) :
    system.KeepsFrom tolerance states iteration left right where
  later := keeps.later.mono fun _ => Solution.ConvergesFrom.of_succ
  found := keeps.found

/-- A breakdown keeps nothing, and need not. -/
theorem keepsFrom_breakdown (x : Vector R n) (method : KrylovMethod) (number : Nat)
    (cause : Breakdown) (right : Solving σ R n (Solution R n)) :
    system.KeepsFrom tolerance states iteration (breakdown x method number cause) right :=
  ⟨yields_fail _, matches_fail _ right⟩

/-- The solves go on alike from a step that is repeated. -/
theorem keepsFrom_bind {α : Type} {step : Solving σ R n α}
    {next nextRight : α → Solving σ R n (Solution R n)}
    (repeated : Attempt.InStep states Eq Eq step step)
    (rest : ∀ value, system.KeepsFrom tolerance states iteration (next value) (nextRight value)) :
    system.KeepsFrom tolerance states iteration (step >>= next) (step >>= nextRight) := by
  refine ⟨(yields_any step).bind fun value _ => (rest value).later, ?_⟩
  refine repeated.matches fun value other same => ?_
  rw [← same]
  exact (rest value).found

/-- They take the same branch of a check that has nothing to do with the limits. -/
theorem keepsFrom_ite {condition : Prop} [Decidable condition]
    {yes no yesRight noRight : Solving σ R n (Solution R n)}
    (first : system.KeepsFrom tolerance states iteration yes yesRight)
    (second : system.KeepsFrom tolerance states iteration no noRight) :
    system.KeepsFrom tolerance states iteration (if condition then yes else no)
      (if condition then yesRight else noRight) where
  later := yields_ite (fun _ => first.later) fun _ => second.later
  found := matches_ite (fun _ => first.found) fun _ => second.found

variable [Scalar R]

/-- Preconditioned vectors are repeated. -/
theorem Repeats.precondition (repeats : system.Repeats states) (x r : Vector R n) :
    Attempt.InStep states Eq Eq (system.precondition x r) (system.precondition x r) := by
  unfold LinearSystem.precondition
  split
  · exact inStep_pure rfl
  · rename_i preconditioner given
    exact (repeats.preconditioner preconditioner given r _).mapError fun _ _ same => same ▸ rfl

/-- Residuals of the start are repeated. -/
theorem Repeats.residual (repeats : system.Repeats states) (x : Vector R n) :
    Attempt.InStep states Eq Eq (system.residual x) (system.residual x) :=
  (repeats.apply x x).bind fun _ _ same => same ▸ inStep_pure rfl

/-- A status tells of convergence if its residual is accepted. -/
theorem converged_status_iff (system : LinearSystem σ R n) (x : Vector R n) (iterations : Nat)
    (residual : R) :
    (⟨x, system.status iterations residual⟩ : Solution R n).Converged ↔
      residual ≤ system.tolerance :=
  decide_eq_true_iff

/-- A tolerance accepts what the tolerance of a system accepts. -/
def AcceptedBy (system : LinearSystem σ R n) (tolerance : R) : Prop :=
  ∀ residual, residual ≤ system.tolerance → residual ≤ tolerance

variable {maxIterations : Nat}

/-- Both solves accept a residual after as many iterations. -/
theorem keptBy_status (x : Vector R n) (iterations : Nat) {residual : R}
    (accepted : residual ≤ tolerance) :
    Solution.KeptBy (tolerance = system.tolerance) ⟨x, system.status iterations residual⟩
      ⟨x, (system.loosened maxIterations tolerance).status iterations residual⟩ where
  converged := (converged_status_iff _ x iterations residual).mpr accepted
  iterations := le_rfl
  equal := by
    rintro rfl
    rfl

/-- A residual that only the looser tolerance accepts is accepted before the stricter solve
ends. -/
theorem keptBy_of_le {solution : Solution R n} (x : Vector R n) {iterations : Nat} {residual : R}
    (refused : ¬residual ≤ system.tolerance) (accepted : residual ≤ tolerance)
    (later : iterations ≤ solution.status.iterations) :
    Solution.KeptBy (tolerance = system.tolerance) solution
      ⟨x, (system.loosened maxIterations tolerance).status iterations residual⟩ where
  converged := (converged_status_iff _ x iterations residual).mpr accepted
  iterations := later
  equal := fun same => absurd (same ▸ accepted) refused

/-- The looser solve may go on from the limit, where the stricter one has not converged. -/
theorem keepsFrom_limit (x : Vector R n) {residual : R} (refused : ¬residual ≤ system.tolerance)
    (right : Solving σ R n (Solution R n)) :
    system.KeepsFrom tolerance states iteration
      (pure ⟨x, system.status system.maxIterations residual⟩) right := by
  have unwanted : ¬(⟨x, system.status system.maxIterations residual⟩ : Solution R n).Converged :=
    (converged_status_iff system x _ residual).not.mpr refused
  refine ⟨yields_pure fun converged => absurd converged unwanted, ?_⟩
  exact matches_of_unwanted right (yields_pure unwanted)

/-- The looser solve accepts a residual with the stricter one, or before it. -/
theorem keepsFrom_accept (accepts : system.AcceptedBy tolerance) (x : Vector R n) {residual : R}
    (goesOn : ¬residual ≤ system.tolerance →
      system.KeepsFrom tolerance states iteration left right) :
    system.KeepsFrom tolerance states iteration
      (if residual ≤ system.tolerance then pure ⟨x, system.status iteration residual⟩ else left)
      (if residual ≤ (system.loosened maxIterations tolerance).tolerance then
        pure ⟨x, (system.loosened maxIterations tolerance).status iteration residual⟩
        else right) where
  later := yields_ite (fun _ => yields_pure fun _ => le_rfl) fun refused => (goesOn refused).later
  found := by
    refine matches_stop (accepts residual) ?_ ?_ ?_
    · exact fun accepted _ => keptBy_status x iteration (accepts residual accepted)
    · intro refused accepted
      exact (goesOn refused).later.mono fun solution later converged =>
        keptBy_of_le x refused accepted (later converged)
    · exact fun refused _ => (goesOn refused).found

end LinearSystem

open LinearSystem

variable [Scalar R] {system : LinearSystem σ R n} {states : σ → σ → Prop} {maxIterations : Nat}
  {tolerance : R}

namespace ConjugateGradients

/-- Iterations with looser limits keep convergence. -/
theorem iterate_keepsFrom (repeats : system.Repeats states) (accepts : system.AcceptedBy tolerance)
    (remaining longer iteration : Nat) (most : remaining ≤ longer) {state : State R n}
    (refused : ¬state.residual ≤ system.tolerance) :
    system.KeepsFrom tolerance states iteration (iterate system remaining iteration state)
      (iterate (system.loosened maxIterations tolerance) longer iteration state) := by
  induction remaining generalizing longer iteration state with
  | zero => exact keepsFrom_limit state.x refused _
  | succ remaining ih =>
    cases longer with
    | zero => exact absurd most (Nat.not_succ_le_zero remaining)
    | succ longer =>
      rw [iterate_succ, iterate_succ]
      refine keepsFrom_bind (repeats.apply state.x state.p) fun image => ?_
      refine keepsFrom_ite ?_ (keepsFrom_breakdown _ _ _ _ _)
      refine keepsFrom_accept accepts _ fun refused => ?_
      refine keepsFrom_bind (repeats.precondition _ _) fun z => ?_
      exact (ih longer (iteration + 1) (Nat.le_of_succ_le_succ most) refused).of_succ

/-- A solve with looser limits keeps convergence. -/
theorem solve_keepsFrom (repeats : system.Repeats states) (accepts : system.AcceptedBy tolerance)
    (limit : system.maxIterations ≤ maxIterations) (x : Vector R n) :
    system.KeepsFrom tolerance states 0 (solve system x)
      (solve (system.loosened maxIterations tolerance) x) := by
  rw [solve_eq, solve_eq]
  refine keepsFrom_bind (repeats.residual x) fun r => ?_
  refine keepsFrom_accept accepts x fun refused => ?_
  refine keepsFrom_bind (repeats.precondition x r) fun z => ?_
  exact (iterate_keepsFrom repeats accepts _ _ 1 limit refused).of_succ

end ConjugateGradients

namespace BiconjugateGradients

/-- Iterations with looser limits keep convergence, whichever of its two steps is the
last one. -/
theorem iterate_keepsFrom (repeats : system.Repeats states) (accepts : system.AcceptedBy tolerance)
    (shadow : Vector R n) (remaining longer iteration : Nat) (most : remaining ≤ longer)
    {state : State R n} (refused : ¬state.residual ≤ system.tolerance) :
    system.KeepsFrom tolerance states iteration (iterate system shadow remaining iteration state)
      (iterate (system.loosened maxIterations tolerance) shadow longer iteration state) := by
  induction remaining generalizing longer iteration state with
  | zero => exact keepsFrom_limit state.x refused _
  | succ remaining ih =>
    cases longer with
    | zero => exact absurd most (Nat.not_succ_le_zero remaining)
    | succ longer =>
      rw [iterate_succ, iterate_succ]
      refine keepsFrom_ite (keepsFrom_breakdown _ _ _ _ _) ?_
      refine keepsFrom_bind (repeats.precondition _ _) fun pHat => ?_
      refine keepsFrom_bind (repeats.apply _ _) fun v => ?_
      refine keepsFrom_ite (keepsFrom_breakdown _ _ _ _ _) ?_
      refine keepsFrom_accept accepts _ fun _ => ?_
      refine keepsFrom_bind (repeats.precondition _ _) fun sHat => ?_
      refine keepsFrom_bind (repeats.apply _ _) fun t => ?_
      refine keepsFrom_accept accepts _ fun refused => ?_
      refine keepsFrom_ite (keepsFrom_breakdown _ _ _ _ _) ?_
      exact (ih longer (iteration + 1) (Nat.le_of_succ_le_succ most) refused).of_succ

/-- A solve with looser limits keeps convergence. -/
theorem solve_keepsFrom (repeats : system.Repeats states) (accepts : system.AcceptedBy tolerance)
    (limit : system.maxIterations ≤ maxIterations) (x : Vector R n) :
    system.KeepsFrom tolerance states 0 (solve system x)
      (solve (system.loosened maxIterations tolerance) x) := by
  rw [solve_eq, solve_eq]
  refine keepsFrom_bind (repeats.residual x) fun r => ?_
  refine keepsFrom_accept accepts x fun refused => ?_
  exact (iterate_keepsFrom repeats accepts r _ _ 1 limit refused).of_succ

end BiconjugateGradients

namespace KrylovSolver

variable {solver : KrylovSolver R} {op : Operator σ R n}
  {preconditioner : Option (Preconditioner σ R n)}

/-- A solver with looser limits keeps convergence for vectors that fit. -/
theorem solve_matches (method : ∀ restart, solver.method ≠ .gmres restart)
    (limit : solver.maxIterations ≤ maxIterations)
    (accepts : ∀ residual, residual ≤ solver.tolerance → residual ≤ tolerance)
    (repeats : op.Repeats states) (repeatsToo : ∀ known ∈ preconditioner, known.Repeats states)
    (b x : Vector R n) :
    Matches states Solution.Converged (Solution.KeptBy (tolerance = solver.tolerance))
      (solver.solve op preconditioner b x)
      ((⟨solver.method, maxIterations, tolerance⟩ : KrylovSolver R).solve op preconditioner b
        x) := by
  have both : (solver.systemOf op preconditioner b (op.comm.norm b)).Repeats states :=
    ⟨repeats, repeatsToo⟩
  refine matches_ite (fun _ => ?_) fun _ => ?_
  · exact matches_pure (yields_pure fun converged => ⟨converged, le_rfl, fun _ => rfl⟩)
  · show Matches states _ _
      (runMethod solver.method (solver.systemOf op preconditioner b (op.comm.norm b)) x)
      (runMethod solver.method ((solver.systemOf op preconditioner b (op.comm.norm b)).loosened
        maxIterations tolerance) x)
    cases chosen : solver.method with
    | cg => exact (ConjugateGradients.solve_keepsFrom both accepts limit x).found
    | gmres restart => exact absurd chosen (method restart)
    | bicgstab => exact (BiconjugateGradients.solve_keepsFrom both accepts limit x).found

/-- So it does for vectors of any length. -/
theorem solveChecked_matches (method : ∀ restart, solver.method ≠ .gmres restart)
    (limit : solver.maxIterations ≤ maxIterations)
    (accepts : ∀ residual, residual ≤ solver.tolerance → residual ≤ tolerance)
    (repeats : op.Repeats states) (repeatsToo : ∀ known ∈ preconditioner, known.Repeats states)
    (b x : Array R) :
    Matches states (fun result => result.2.converged = true)
      (fun result found => found.2.converged = true ∧
        found.2.iterations ≤ result.2.iterations ∧ (tolerance = solver.tolerance → found = result))
      (solver.solveChecked op preconditioner b x)
      ((⟨solver.method, maxIterations, tolerance⟩ : KrylovSolver R).solveChecked op preconditioner
        b x) := by
  unfold solveChecked solveCheckedBy
  rcases checkPair n b x with error | ⟨rhs, start⟩
  · exact matches_fail _ _
  · refine (solve_matches method limit accepts repeats repeatsToo rhs start).convert _ _
      (fun _ converged => converged) fun solution found kept => ?_
    exact ⟨kept.converged, kept.iterations, fun same => by rw [kept.equal same]⟩

/-- Looser limits never lose convergence. In any arithmetic whose comparison is transitive,
with conjugate gradients or their stabilized biconjugate variant, for every operator and
every preconditioner that repeat their answers, and all right-hand sides and starts: if a
solve converges, then so does a solve with a tolerance and a limit that are no stricter, in
no more iterations; and with the same tolerance it leaves the same solution and the same
status. -/
theorem looser_limits_keep_convergence (solver : KrylovSolver R) (maxIterations : Nat)
    (tolerance : R) (op : Operator σ R n) (preconditioner : Option (Preconditioner σ R n))
    (b x solved : Array R) (status : SolveStatus R) (states : σ → σ → Prop) (state other after : σ)
    (transitive : ∀ a b c : R, a ≤ b → b ≤ c → a ≤ c)
    (method : ∀ restart, solver.method ≠ .gmres restart)
    (limit : solver.maxIterations ≤ maxIterations) (looser : solver.tolerance ≤ tolerance)
    (repeats : op.Repeats states) (repeatsToo : ∀ known ∈ preconditioner, known.Repeats states)
    (related : states state other)
    (done : (solver.solveChecked op preconditioner b x).run state = (.ok (solved, status), after))
    (converged : status.converged = true) :
    ∃ found reached last,
      ((⟨solver.method, maxIterations, tolerance⟩ : KrylovSolver R).solveChecked op preconditioner
        b x).run other = (.ok (found, reached), last) ∧
      reached.converged = true ∧ reached.iterations ≤ status.iterations ∧
        (tolerance = solver.tolerance → found = solved ∧ reached = status) := by
  have accepts (residual : R) (accepted : residual ≤ solver.tolerance) : residual ≤ tolerance :=
    transitive residual solver.tolerance tolerance accepted looser
  obtain ⟨⟨found, reached⟩, last, run, converges, fewer, equal⟩ :=
    solveChecked_matches method limit accepts repeats repeatsToo b x state other related
      (solved, status) after done converged
  exact ⟨found, reached, last, run, converges, fewer, fun same => Prod.mk.inj (equal same)⟩

/-- A solve with two iterations ends after the first one under a looser tolerance. -/
theorem looser_limits_keep_convergence_scaled :
    ∃ found reached last,
      ((⟨.bicgstab, 5, 1 / 2⟩ : KrylovSolver Rat).solveChecked
        (Operator.ofAction (Vec.diagonal ![2, 1]) Unit)
        (some ⟨fun r _ => pure (Vec.hadamard #v[1, 3] r)⟩) #[3, 4] #[0, 0]).run () =
          (.ok (found, reached), last) ∧
      reached.converged = true ∧ reached.iterations ≤ 2 ∧
        ((1 / 2 : Rat) = 0 → found = #[3 / 2, 4] ∧ reached = ⟨2, 0, true⟩) := by
  have found : (((⟨.bicgstab, 4, 0⟩ : KrylovSolver Rat).solveChecked
      (Operator.ofAction (Vec.diagonal ![2, 1]) Unit)
      (some ⟨fun r _ => pure (Vec.hadamard #v[1, 3] r)⟩) #[3, 4] #[0, 0]).run ()).1.toOption =
        some (#[3 / 2, 4], ⟨2, 0, true⟩) := by
    decide +kernel
  refine looser_limits_keep_convergence ⟨.bicgstab, 4, 0⟩ 5 (1 / 2) _ _ #[3, 4] #[0, 0]
    #[3 / 2, 4] ⟨2, 0, true⟩ (fun _ _ => True) () () _ (fun _ _ _ => le_trans) (fun _ => nofun)
    (by decide) (by decide +kernel) (fun _ => inStep_pure rfl) ?_ trivial
    (Attempt.run_eq_ok found) rfl
  rintro known ⟨⟩ r y
  exact inStep_pure rfl

end KrylovSolver

end HexSlab

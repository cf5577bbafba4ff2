import HexSlab.Proofs.Krylov.PlainDivision
import HexSlab.Proofs.ScaledVectors

/-!
# Systems whose reductions differ by a factor

One system solved in two runs: the inner products of the second run are multiples
of those of the first. Relative norms and quotients of inner products are then
the same, and so is every vector that conjugate gradients and stabilized
biconjugate gradients compute from them. Only the inner products that are carried
from one iteration to the next differ, by the factor.
-/

namespace HexSlab

open Vec

variable {σ τ R : Type} [Field R] {n : Nat}

/-- Two preconditioners are in step on right-hand sides that differ by a factor,
when they start from zero. -/
def Preconditioner.InStepWith (states : σ → τ → Prop) (preconditioner : Preconditioner σ R n)
    (copy : Preconditioner τ R n) : Prop :=
  ∀ (k : R) (r s : Vector R n), Scaled k r s →
    (preconditioner.applyInverse r (fill 0)).InStep states Eq (Scaled k)
      (copy.applyInverse s (fill 0))

variable [LinearOrder R] [Roots R]

namespace LinearSystem

/-- A system in a second run, whose inner products are multiples of those of the
first. -/
structure CopiedBy (states : σ → τ → Prop) (c : R) (system : LinearSystem σ R n)
    (copy : LinearSystem τ R n) : Prop where
  /-- Norms are multiples by the factor. -/
  reductions : system.op.comm.Multiplies copy.op.comm c n
  /-- The operators are in step. -/
  operators : system.op.InStepWith states copy.op
  /-- Both systems have a preconditioner or none, and the preconditioners are in
  step. -/
  preconditioners :
    Option.Rel (Preconditioner.InStepWith states) system.preconditioner copy.preconditioner
  /-- The right-hand side is the same. -/
  b_eq : system.b = copy.b
  /-- Its norm is a multiple. -/
  bNorm_eq : copy.bNorm = c * system.bNorm
  /-- The limit of iterations is the same. -/
  maxIterations_eq : system.maxIterations = copy.maxIterations
  /-- The tolerance is the same. -/
  tolerance_eq : system.tolerance = copy.tolerance

namespace CopiedBy

variable {states : σ → τ → Prop} {c : R} {system : LinearSystem σ R n} {copy : LinearSystem τ R n}

/-- Vectors that differ by a factor have images that do. -/
theorem apply (copied : system.CopiedBy states c copy) (x : Vector R n) {k : R} {v w : Vector R n}
    (scaled : Scaled k v w) : (system.apply x v).InStep states Eq (Scaled k) (copy.apply x w) := by
  refine (copied.operators k v w scaled).mapError ?_
  rintro error _ rfl
  rfl

/-- A vector has one image. -/
theorem apply_same (copied : system.CopiedBy states c copy) (x v : Vector R n) :
    (system.apply x v).InStep states Eq Eq (copy.apply x v) :=
  (copied.apply x (scaled_refl v)).mono fun _ _ => scaled_one_iff.mp

/-- Preconditioned vectors differ by the factor of the vectors. -/
theorem precondition (copied : system.CopiedBy states c copy) (x : Vector R n) {k : R}
    {r s : Vector R n} (scaled : Scaled k r s) :
    (system.precondition x r).InStep states Eq (Scaled k) (copy.precondition x s) := by
  have both := copied.preconditioners
  unfold LinearSystem.precondition
  generalize system.preconditioner = own at both ⊢
  generalize copy.preconditioner = other at both ⊢
  cases both with
  | none => exact Attempt.inStep_pure scaled
  | some inStep =>
    refine (inStep k r s scaled).mapError ?_
    rintro error _ rfl
    rfl

/-- One vector is preconditioned to one. -/
theorem precondition_same (copied : system.CopiedBy states c copy) (x r : Vector R n) :
    (system.precondition x r).InStep states Eq Eq (copy.precondition x r) :=
  (copied.precondition x (scaled_refl r)).mono fun _ _ => scaled_one_iff.mp

/-- A solution has one residual. -/
theorem residual (copied : system.CopiedBy states c copy) (x : Vector R n) :
    (system.residual x).InStep states Eq Eq (copy.residual x) := by
  refine (copied.apply_same x x).bind ?_
  rintro image _ rfl
  rw [copied.b_eq]
  exact Attempt.inStep_pure rfl

/-- Inner products are multiples by the square of the factor. -/
theorem dot_eq (copied : system.CopiedBy states c copy) (x y : Vector R n) :
    copy.dot x y = c * c * system.dot x y :=
  copied.reductions.dot_eq x y

/-- The square of the factor is not zero. -/
theorem square_ne_zero (copied : system.CopiedBy states c copy) : c * c ≠ 0 :=
  mul_self_ne_zero.mpr copied.reductions.positive.ne'

/-- A multiple by the factor has the same size relative to the right-hand side. -/
theorem relative_eq (copied : system.CopiedBy states c copy) (a : R) :
    c * a / copy.bNorm = a / system.bNorm := by
  rw [copied.bNorm_eq, mul_div_mul_left _ _ copied.reductions.positive.ne']

/-- Relative norms are the same. -/
theorem relativeNorm_eq (copied : system.CopiedBy states c copy) (r : Vector R n) :
    copy.relativeNorm r = system.relativeNorm r := by
  unfold relativeNorm
  rw [copied.reductions.norm_eq]
  exact copied.relative_eq _

/-- So are the reports of a status. -/
theorem status_eq (copied : system.CopiedBy states c copy) (iterations : Nat) (residual : R) :
    copy.status iterations residual = system.status iterations residual := by
  unfold status
  rw [copied.tolerance_eq]

/-- A solution is accepted in both runs, or both go on. -/
theorem accept_inStep (copied : system.CopiedBy states c copy) (x : Vector R n) (iterations : Nat)
    (residual : R) {rest : Solving σ R n (Solution R n)} {restCopy : Solving τ R n (Solution R n)}
    (next : rest.InStep states Eq Eq restCopy) :
    Attempt.InStep states Eq Eq
      (if residual ≤ system.tolerance then pure ⟨x, system.status iterations residual⟩ else rest)
      (if residual ≤ copy.tolerance then pure ⟨x, copy.status iterations residual⟩
        else restCopy) := by
  rw [copied.status_eq, copied.tolerance_eq]
  exact Attempt.inStep_ite Iff.rfl (fun _ => Attempt.inStep_pure rfl) fun _ => next

/-- Quotients of inner products are the same. -/
theorem quotient_eq (copied : system.CopiedBy states c copy) (a : R) (x y : Vector R n) :
    c * c * a / copy.dot x y = a / system.dot x y := by
  rw [copied.dot_eq, mul_div_mul_left _ _ copied.square_ne_zero]

/-- Inner products vanish together. -/
theorem dot_beq_iff (copied : system.CopiedBy states c copy) (x y : Vector R n) :
    (system.dot x y == 0) = true ↔ (copy.dot x y == 0) = true := by
  rw [beq_iff_eq, beq_iff_eq, copied.dot_eq, mul_eq_zero_iff_left copied.square_ne_zero]

/-- They are positive together. -/
theorem dot_pos_iff [IsStrictOrderedRing R] (copied : system.CopiedBy states c copy)
    (x y : Vector R n) : 0 < system.dot x y ↔ 0 < copy.dot x y := by
  rw [copied.dot_eq]
  exact (mul_pos_iff_of_pos_left (mul_self_pos.mpr copied.reductions.positive.ne')).symm

/-- The length of a stabilizing step is the same, also where there is none. -/
theorem stabilization_eq [IsStrictOrderedRing R] (copied : system.CopiedBy states c copy)
    (t s : Vector R n) :
    BiconjugateGradients.stabilization copy t s =
      BiconjugateGradients.stabilization system t s := by
  rw [BiconjugateGradients.stabilization, copied.dot_eq t s, copied.quotient_eq]
  exact if_congr (copied.dot_pos_iff t t).symm rfl rfl

end CopiedBy

end LinearSystem

variable [IsStrictOrderedRing R] {states : σ → τ → Prop} {c : R} {system : LinearSystem σ R n}
  {copy : LinearSystem τ R n}

namespace ConjugateGradients

/-- From one state, up to the inner product that it carries, both runs iterate to
one solution. -/
theorem iterate_inStep (copied : system.CopiedBy states c copy) (remaining iteration : Nat)
    (state : State R n) :
    (iterate system remaining iteration state).InStep states Eq Eq
      (iterate copy remaining iteration { state with rz := c * c * state.rz }) := by
  induction remaining generalizing iteration state with
  | zero =>
    rw [iterate_zero, iterate_zero, copied.status_eq, copied.maxIterations_eq]
    exact Attempt.inStep_pure rfl
  | succ remaining ih =>
    rw [iterate_succ, iterate_succ]
    refine (copied.apply_same state.x state.p).bind ?_
    rintro image _ rfl
    dsimp only
    rw [copied.quotient_eq]
    refine Attempt.inStep_ite (copied.dot_pos_iff _ _) (fun _ => ?_) fun _ =>
      Attempt.inStep_fail rfl
    -- from here on both runs hold the same vectors and carry `rz` by the square of the factor
    generalize state.rz / system.dot state.p image = alpha
    have moved : ({ state with rz := c * c * state.rz } : State R n).step alpha image =
        { state.step alpha image with rz := c * c * state.rz } := rfl
    rw [moved, copied.relativeNorm_eq]
    refine copied.accept_inStep _ _ _ ?_
    refine (copied.precondition_same _ _).bind ?_
    rintro z _ rfl
    rw [copied.dot_eq, mul_div_mul_left _ _ copied.square_ne_zero]
    exact ih _ _

/-- Both runs solve the system alike. -/
theorem solve_inStep (copied : system.CopiedBy states c copy) (x : Vector R n) :
    (solve system x).InStep states Eq Eq (solve copy x) := by
  rw [solve_eq, solve_eq]
  refine (copied.residual x).bind ?_
  rintro r _ rfl
  dsimp only
  rw [copied.relativeNorm_eq]
  refine copied.accept_inStep _ _ _ ?_
  refine (copied.precondition_same x r).bind ?_
  rintro z _ rfl
  rw [copied.dot_eq, ← copied.maxIterations_eq]
  exact iterate_inStep copied _ _ ⟨x, r, z, system.dot r z, system.relativeNorm r⟩

end ConjugateGradients

namespace BiconjugateGradients

omit [IsStrictOrderedRing R] in
/-- The direction is the same if the inner products are multiples by one factor.
The first iteration does not use the one that is carried. -/
theorem direction_eq (state : State R n) {iteration : Nat} {carried factor : R}
    (known : iteration = 1 ∨ carried = factor * state.rho) (nonzero : factor ≠ 0) (rho : R) :
    ({ state with rho := carried } : State R n).direction iteration (factor * rho) =
      state.direction iteration rho := by
  unfold State.direction
  rcases known with first | multiple
  · rw [if_pos first, if_pos first]
  · dsimp only
    rw [multiple, mul_div_mul_left _ _ nonzero]

/-- From one state, up to the inner product that it carries, both runs iterate to
one solution. -/
theorem iterate_inStep (copied : system.CopiedBy states c copy) (shadow : Vector R n)
    (remaining iteration : Nat) (state : State R n) (carried : R)
    (known : iteration = 1 ∨ carried = c * c * state.rho) :
    (iterate system shadow remaining iteration state).InStep states Eq Eq
      (iterate copy shadow remaining iteration { state with rho := carried }) := by
  induction remaining generalizing iteration state carried with
  | zero =>
    rw [iterate_zero, iterate_zero, copied.status_eq, copied.maxIterations_eq]
    exact Attempt.inStep_pure rfl
  | succ remaining ih =>
    rw [iterate_succ, iterate_succ]
    dsimp only
    -- each breakdown is a test of one inner product, and each length a quotient of two
    refine Attempt.inStep_ite (copied.dot_beq_iff _ _) (fun _ => ?_) fun _ => ?_
    · exact Attempt.inStep_fail rfl
    rw [copied.dot_eq shadow state.r, direction_eq state known copied.square_ne_zero]
    refine (copied.precondition_same _ _).bind ?_
    rintro pHat _ rfl
    refine (copied.apply_same _ _).bind ?_
    rintro v _ rfl
    refine Attempt.inStep_ite (copied.dot_beq_iff _ _) (fun _ => ?_) fun _ => ?_
    · exact Attempt.inStep_fail rfl
    rw [copied.quotient_eq]
    generalize system.dot shadow state.r / system.dot shadow v = alpha
    rw [copied.relativeNorm_eq]
    refine copied.accept_inStep _ _ _ ?_
    generalize axpy (-alpha) v 1 state.r = s
    refine (copied.precondition_same _ _).bind ?_
    rintro sHat _ rfl
    refine (copied.apply_same _ _).bind ?_
    rintro t _ rfl
    rw [copied.stabilization_eq]
    generalize stabilization system t s = omega
    rw [copied.relativeNorm_eq]
    refine copied.accept_inStep _ _ _ ?_
    refine Attempt.inStep_ite Iff.rfl (fun _ => ?_) fun _ => ?_
    · exact Attempt.inStep_fail rfl
    exact ih (iteration + 1) ⟨_, _, _, _, system.dot shadow state.r, _, _, _⟩ _ (.inr rfl)

/-- Both runs solve the system alike. -/
theorem solve_inStep (copied : system.CopiedBy states c copy) (x : Vector R n) :
    (solve system x).InStep states Eq Eq (solve copy x) := by
  rw [solve_eq, solve_eq]
  refine (copied.residual x).bind ?_
  rintro r _ rfl
  dsimp only
  rw [copied.relativeNorm_eq]
  refine copied.accept_inStep _ _ _ ?_
  -- the number one is carried into the first iteration by both runs, so it is no multiple
  rw [← copied.maxIterations_eq]
  exact iterate_inStep copied r _ 1 (.first x r (system.relativeNorm r)) 1 (.inl rfl)

end BiconjugateGradients

end HexSlab

import HexSlab.Proofs.Krylov.ConjugateDirections
import HexSlab.Proofs.ScaledVectors
import HexSlab.Proofs.Spectrum.LanczosRuns

/-!
# Estimates stay inside the spectrum

For a symmetric and positive definite operator the tridiagonal matrix of a run is the
operator itself, seen from the directions that the run explored: to each vector of the
length of the run there is one whose energy is the quadratic form of the matrix, and
whose length by the diagonal is that of the vector. Bounds of the energy by the length
are then bounds of the form, so of the estimated eigenvalues.
-/

namespace HexSlab

open scoped Matrix
open Vec

variable {R : Type} [Field R] {n : Nat}

/-- A multiple of a vector and a conjugate one. -/
theorem dotProduct_map_smul_sub {map : (Fin n → R) →ₗ[R] (Fin n → R)} {v w : Fin n → R}
    (left : v ⬝ᵥ map w = 0) (right : w ⬝ᵥ map v = 0) (a : R) :
    (a • v - w) ⬝ᵥ map (a • v - w) = a * a * (v ⬝ᵥ map v) + w ⬝ᵥ map w := by
  rw [map_sub, map_smul, sub_dotProduct, dotProduct_sub, dotProduct_sub, smul_dotProduct,
    smul_dotProduct, dotProduct_smul, dotProduct_smul, left, right, smul_eq_mul, smul_eq_mul,
    smul_eq_mul]
  ring

variable [LinearOrder R] [Roots R]

/-- The coefficients of a vector along the residuals and directions that a run meets
from a state of the method. The residuals are combined to `y` and the directions to
`w`, which differ by what the first direction has of earlier ones. -/
structure Combines (action inverse : (Fin n → R) →ₗ[R] (Fin n → R))
    (explored : Submodule R (Fin n → R)) (r p : Fin n → R) (run : LanczosRun R) (u : List R)
    (y w : Fin n → R) : Prop where
  /-- The residuals are orthogonal to what was explored before. -/
  orthogonal : ∀ s ∈ explored, y ⬝ᵥ s = 0
  /-- The directions are conjugate to it. -/
  conjugate : ∀ s ∈ explored, w ⬝ᵥ action s = 0
  /-- The directions are the preconditioned residuals, but for the first. -/
  shift : w = inverse y + (u.headD 0 / Roots.sqrt (r ⬝ᵥ inverse r)) • (p - inverse r)
  /-- The residuals have unit length and are orthogonal to each other. -/
  length : y ⬝ᵥ inverse y = (u.map fun x => x * x).sum
  /-- The energy of the directions is the form of the run. -/
  energy : w ⬝ᵥ action w = run.form u

/-- Every vector of the length of a run has its combinations. -/
def LanczosRun.Represents (run : LanczosRun R) (action inverse : (Fin n → R) →ₗ[R] (Fin n → R))
    (explored : Submodule R (Fin n → R)) (r p : Fin n → R) : Prop :=
  ∀ u : List R, u.length = run.steps.length →
    ∃ y w, Combines action inverse explored r p run u y w

variable {action inverse : (Fin n → R) →ₗ[R] (Fin n → R)} {explored : Submodule R (Fin n → R)}
  {r p moved : Fin n → R} {alpha beta : R}
  {σ : Type} {op : Operator σ R n} {scale : Vector R n}

section Steps

/-- A run without a step combines nothing. -/
theorem combines_none (action inverse : (Fin n → R) →ₗ[R] (Fin n → R))
    (explored : Submodule R (Fin n → R)) (r p : Fin n → R) :
    Combines action inverse explored r p .none [] 0 0 where
  orthogonal := fun s _ => zero_dotProduct s
  conjugate := fun s _ => zero_dotProduct _
  shift := by rw [map_zero, List.headD_nil, zero_div, zero_smul, add_zero]
  length := by rw [zero_dotProduct, List.map_nil, List.sum_nil]
  energy := zero_dotProduct _

/-- The energy of a multiple of the direction, by the length of the residual. -/
theorem ConjugateStep.energy_scaled (roots : SquareRoots R)
    (step : ConjugateStep action inverse r p moved alpha beta) (size : 0 < r ⬝ᵥ inverse r)
    (x : R) :
    x / Roots.sqrt (r ⬝ᵥ inverse r) * (x / Roots.sqrt (r ⬝ᵥ inverse r)) * (p ⬝ᵥ action p) =
      x * x / alpha := by
  have nonzero : alpha ≠ 0 := by
    rintro rfl
    have none := step.length
    rw [zero_mul] at none
    exact size.ne none
  rw [eq_div_iff nonzero, mul_assoc, mul_comm _ alpha, step.length, roots.div_sqrt_mul_self size]

/-- The last step of a run combines its own residual and direction. -/
theorem ConjugateStep.combines_last (roots : SquareRoots R)
    (step : ConjugateStep action inverse r p moved alpha beta)
    (holds : Conjugate action inverse explored r p) (size : 0 < r ⬝ᵥ inverse r) (x : R) :
    Combines action inverse explored r p (.last alpha) [x]
      ((x / Roots.sqrt (r ⬝ᵥ inverse r)) • r) ((x / Roots.sqrt (r ⬝ᵥ inverse r)) • p) where
  orthogonal := by
    intro s old
    rw [smul_dotProduct, holds.orthogonal s old, smul_zero]
  conjugate := by
    intro s old
    rw [smul_dotProduct, holds.conjugate s old, smul_zero]
  shift := by
    rw [map_smul, List.headD_cons, ← smul_add, add_sub_cancel]
  length := by
    rw [map_smul, smul_dotProduct, dotProduct_smul, smul_eq_mul, smul_eq_mul, ← mul_assoc,
      roots.div_sqrt_mul_self size, List.map_singleton, List.sum_singleton]
  energy := by
    rw [map_smul, smul_dotProduct, dotProduct_smul, smul_eq_mul, smul_eq_mul, ← mul_assoc,
      step.energy_scaled roots size, LanczosRun.form_last]

variable [IsStrictOrderedRing R]

/-- What a multiple of the next direction has of this one, by the length of the next
residual, which is that of this one times the root of the turn. -/
theorem ConjugateStep.carried (roots : SquareRoots R)
    (step : ConjugateStep action inverse r p moved alpha beta) (size : 0 < r ⬝ᵥ inverse r)
    (onward : 0 < beta) (x : R) :
    x / Roots.sqrt (moved ⬝ᵥ inverse moved) * beta =
      Roots.sqrt beta * x / Roots.sqrt (r ⬝ᵥ inverse r) := by
  have square : Roots.sqrt beta * Roots.sqrt beta = beta := roots.mul_self beta onward.le
  have next : Roots.sqrt (moved ⬝ᵥ inverse moved) =
      Roots.sqrt beta * Roots.sqrt (r ⬝ᵥ inverse r) := by
    rw [← step.turn, ← roots.sqrt_mul_self_mul (roots.nonneg beta onward.le) size.le, square]
  have own : Roots.sqrt (r ⬝ᵥ inverse r) ≠ 0 := (roots.sqrt_pos size).ne'
  have root : Roots.sqrt beta ≠ 0 := (roots.sqrt_pos onward).ne'
  rw [next, div_mul_eq_mul_div, div_eq_div_iff (mul_ne_zero root own) own]
  calc x * beta * Roots.sqrt (r ⬝ᵥ inverse r)
      = x * (Roots.sqrt beta * Roots.sqrt beta) * Roots.sqrt (r ⬝ᵥ inverse r) := by rw [square]
    _ = Roots.sqrt beta * x * (Roots.sqrt beta * Roots.sqrt (r ⬝ᵥ inverse r)) := by ring

/-- A step in front of a run combines its own residual and direction with the later
ones, which are subtracted: the matrix has the roots of the turns beside its diagonal
and not their negatives. What the later directions have of this one is added to its
factor. -/
theorem ConjugateStep.combines_cons (roots : SquareRoots R)
    (step : ConjugateStep action inverse r p moved alpha beta)
    (holds : Conjugate action inverse explored r p)
    (positive : PositiveDefinite action) (definite : PositiveDefinite inverse)
    (size : 0 < r ⬝ᵥ inverse r) (onward : 0 < beta) {rest : LanczosRun R} {u : List R}
    (long : u.length = rest.steps.length) {y w : Fin n → R}
    (later : Combines action inverse (explored ⊔ Submodule.span R {p}) moved
      (inverse moved + beta • p) rest u y w) (x : R) :
    Combines action inverse explored r p (.cons alpha beta rest) (x :: u)
      ((x / Roots.sqrt (r ⬝ᵥ inverse r)) • r - y)
      (((x + Roots.sqrt beta * u.headD 0) / Roots.sqrt (r ⬝ᵥ inverse r)) • p - w) := by
  constructor
  case orthogonal =>
    intro s old
    rw [sub_dotProduct, smul_dotProduct, holds.orthogonal s old,
      later.orthogonal s (Submodule.mem_sup_left old), smul_zero, sub_zero]
  case conjugate =>
    intro s old
    rw [sub_dotProduct, smul_dotProduct, holds.conjugate s old,
      later.conjugate s (Submodule.mem_sup_left old), smul_zero, sub_zero]
  case shift =>
    have directions : w = inverse y +
        (Roots.sqrt beta * u.headD 0 / Roots.sqrt (r ⬝ᵥ inverse r)) • p := by
      rw [later.shift, add_sub_cancel_left, smul_smul, step.carried roots size onward]
    rw [directions, map_sub, map_smul, List.headD_cons, add_div, add_smul, smul_sub]
    abel
  case length =>
    have right : y ⬝ᵥ inverse r = 0 := later.orthogonal _ holds.inverse_residual_mem
    have left : r ⬝ᵥ inverse y = 0 := by rw [← definite.symmetric, dotProduct_comm, right]
    rw [dotProduct_map_smul_sub left right, roots.div_sqrt_mul_self size, later.length,
      List.map_cons, List.sum_cons]
  case energy =>
    have along : p ∈ explored ⊔ Submodule.span R {p} :=
      Submodule.mem_sup_right (Submodule.mem_span_singleton_self p)
    have right : w ⬝ᵥ action p = 0 := later.conjugate p along
    have left : p ⬝ᵥ action w = 0 := by rw [← positive.symmetric, dotProduct_comm, right]
    rw [dotProduct_map_smul_sub left right, step.energy_scaled roots size, later.energy,
      LanczosRun.form_cons roots onward.le rest x long]

end Steps

section Represents

/-- A run without a step represents what it is asked for. -/
theorem represents_none (action inverse : (Fin n → R) →ₗ[R] (Fin n → R))
    (explored : Submodule R (Fin n → R)) (r p : Fin n → R) :
    LanczosRun.none.Represents action inverse explored r p := by
  intro u long
  obtain rfl : u = [] := List.eq_nil_of_length_eq_zero long
  exact ⟨0, 0, combines_none action inverse explored r p⟩

/-- The last step of a run represents the operator along its direction. -/
theorem ConjugateStep.represents_last (roots : SquareRoots R)
    (step : ConjugateStep action inverse r p moved alpha beta)
    (holds : Conjugate action inverse explored r p) (size : 0 < r ⬝ᵥ inverse r) :
    (LanczosRun.last alpha).Represents action inverse explored r p := by
  intro u long
  obtain ⟨x, rfl⟩ := List.length_eq_one_iff.mp long
  exact ⟨_, _, step.combines_last roots holds size x⟩

/-- The form of the matrix of a run at a vector is the energy of some other vector,
whose length by the diagonal is that of the first. -/
theorem LanczosRun.Represents.exists_energy_eq {run : LanczosRun R} (sound : run.Sound)
    {d : Fin n → R} (nonzero : ∀ i, d i ≠ 0)
    (represents : run.Represents action (diagonal d) ⊥ r (diagonal d r))
    (u : Fin run.tridiagonal.diagonal.length → R) :
    ∃ v, v ⬝ᵥ diagonal d⁻¹ v = u ⬝ᵥ u ∧
      v ⬝ᵥ action v = u ⬝ᵥ (run.tridiagonal.toMatrix *ᵥ u) := by
  have long : (List.ofFn u).length = run.steps.length := by
    rw [List.length_ofFn, sound.length_diagonal]
  obtain ⟨y, w, combined⟩ := represents (List.ofFn u) long
  have direction : w = diagonal d y := by
    rw [combined.shift, sub_self, smul_zero, add_zero]
  have back : diagonal d⁻¹ w = y := by
    rw [direction]
    funext i
    exact inv_mul_cancel_left₀ (nonzero i) (y i)
  refine ⟨w, ?_, ?_⟩
  · rw [back, dotProduct_comm, direction, combined.length, List.map_ofFn, List.sum_ofFn]
    rfl
  · rw [combined.energy, LanczosRun.form, ← Tridiagonal.dotProduct_toMatrix_mulVec]

/-- The step of a run is one of conjugate directions. -/
theorem lanczos_conjugateStep (alone : op.comm = .serial) {r p q : Vector R n} {rz : R}
    (image : entries q = action (entries p))
    (rz_eq : rz = entries r ⬝ᵥ diagonal (entries scale) (entries r)) (residual : 0 < rz)
    (energy : 0 < op.comm.dot p q) :
    let moved := axpy (-(rz / op.comm.dot p q)) q 1 r
    ConjugateStep action (diagonal (entries scale)) (entries r) (entries p) (entries moved)
      (rz / op.comm.dot p q) (op.comm.dot moved (hadamard scale moved) / rz) where
  move := by rw [entries_axpy, image, one_smul, neg_smul, neg_add_eq_sub]
  length := by
    have energy_eq : op.comm.dot p q = entries p ⬝ᵥ action (entries p) := by
      rw [alone, dot_serial, image]
    rw [← energy_eq, div_mul_cancel₀ _ energy.ne', rz_eq]
  turn := by
    rw [← rz_eq, div_mul_cancel₀ _ residual.ne', alone, dot_serial, entries_hadamard]
    rfl

variable [IsStrictOrderedRing R]

/-- A step in front of a run that represents the operator from the next state on. -/
theorem ConjugateStep.represents_cons (roots : SquareRoots R)
    (step : ConjugateStep action inverse r p moved alpha beta)
    (holds : Conjugate action inverse explored r p) (positive : PositiveDefinite action)
    (definite : PositiveDefinite inverse) (size : 0 < r ⬝ᵥ inverse r) (onward : 0 < beta)
    {rest : LanczosRun R}
    (later : rest.Represents action inverse (explored ⊔ Submodule.span R {p}) moved
      (inverse moved + beta • p)) :
    (LanczosRun.cons alpha beta rest).Represents action inverse explored r p := by
  intro u long
  obtain ⟨x, u, rfl⟩ := List.exists_cons_of_length_eq_add_one long
  have shorter : u.length = rest.steps.length := Nat.succ.inj long
  obtain ⟨y, w, combined⟩ := later u shorter
  exact ⟨_, _, step.combines_cons roots holds positive definite size onward shorter combined x⟩

/-- A run from a state of the method represents the operator: the step that is taken is
in front of what the next state represents. -/
theorem lanczosSteps_represents (roots : SquareRoots R) (alone : op.comm = .serial)
    (acts : op.ActsAs action) (positive : PositiveDefinite action)
    (definite : PositiveDefinite (diagonal (entries scale))) (bound : R) (count : Nat)
    {explored : Submodule R (Fin n → R)} {r p : Vector R n} {rz : R}
    (holds : Conjugate action (diagonal (entries scale)) explored (entries r) (entries p))
    (rz_eq : rz = entries r ⬝ᵥ diagonal (entries scale) (entries r)) :
    (lanczosSteps op scale bound count r p rz).Yields fun run =>
      run.Represents action (diagonal (entries scale)) explored (entries r) (entries p) := by
  induction count generalizing explored r p rz with
  | zero => exact Attempt.yields_pure (represents_none _ _ _ _ _)
  | succ count ih =>
    unfold lanczosSteps
    split_ifs with residual
    · refine ((acts p).mapError _).bind fun q image => ?_
      dsimp only
      by_cases energy : 0 < op.comm.dot p q
      · rw [if_pos energy]
        have step := lanczos_conjugateStep alone image rz_eq residual energy
        have size : 0 < entries r ⬝ᵥ diagonal (entries scale) (entries r) := by rwa [← rz_eq]
        have nonzero : entries r ≠ 0 := by
          intro zero
          rw [zero, zero_dotProduct] at size
          exact lt_irrefl 0 size
        -- the two exits behind the step keep its length and not its turn
        have ends := step.represents_last roots holds size
        generalize axpy (-(rz / op.comm.dot p q)) q 1 r = moved at *
        split_ifs with converged onward
        · exact Attempt.yields_pure ends
        · have solved : entries (hadamard scale moved) = diagonal (entries scale) (entries moved) :=
            entries_hadamard scale moved
          have next : Conjugate action (diagonal (entries scale))
              (explored ⊔ Submodule.span R {entries p}) (entries moved)
              (entries (axpy 1 (hadamard scale moved)
                (op.comm.dot moved (hadamard scale moved) / rz) p)) := by
            rw [entries_axpy, one_smul, solved]
            exact step.keeps holds positive definite nonzero
          refine (ih next ?_).bind fun rest later => ?_
          · rw [alone, dot_serial, solved]
          · rw [entries_axpy, one_smul, solved] at later
            exact Attempt.yields_pure
              (step.represents_cons roots holds positive definite size onward later)
        · exact Attempt.yields_pure ends
      · rw [if_neg energy]
        exact Attempt.yields_pure (represents_none _ _ _ _ _)
    · exact Attempt.yields_pure (represents_none _ _ _ _ _)

/-- A run from a start vector represents the operator with nothing explored before. -/
theorem lanczosRun_represents (roots : SquareRoots R) (alone : op.comm = .serial)
    (acts : op.ActsAs action) (positive : PositiveDefinite action)
    (definite : PositiveDefinite (diagonal (entries scale))) (start : Vector R n)
    (iterations : Nat) :
    (lanczosRun op scale start iterations).Yields fun run =>
      run.Represents action (diagonal (entries scale)) ⊥ (entries start)
        (diagonal (entries scale) (entries start)) := by
  have solved : entries (hadamard scale start) = diagonal (entries scale) (entries start) :=
    entries_hadamard scale start
  have first : Conjugate action (diagonal (entries scale)) ⊥ (entries start)
      (entries (hadamard scale start)) := by
    rw [solved]
    exact conjugate_bot action (diagonal (entries scale)) (entries start)
  have size : op.comm.dot start (hadamard scale start) =
      entries start ⬝ᵥ diagonal (entries scale) (entries start) := by
    rw [alone, dot_serial, solved]
  have run := lanczosSteps_represents roots alone acts positive definite
    (lanczosTolerance * Scalar.sqrt (Scalar.abs (op.comm.dot start (hadamard scale start))))
    iterations first size
  rw [solved] at run
  exact run

/-- Of a symmetric and positive definite operator every run builds a matrix that lies
between all bounds of its energy by the length that the diagonal gives, and estimated
eigenvalues lie there with it. -/
theorem cgEstimate_within_bounds (roots : SquareRoots R) (alone : op.comm = .serial)
    (acts : op.ActsAs action) (positive : PositiveDefinite action) (inverse start : Vector R n)
    (iterations : Nat) (scaled : ∀ i, 0 < entries inverse i) {least most : R}
    (lower : ∀ v, least * (v ⬝ᵥ diagonal (entries inverse)⁻¹ v) ≤ v ⬝ᵥ action v)
    (upper : ∀ v, v ⬝ᵥ action v ≤ most * (v ⬝ᵥ diagonal (entries inverse)⁻¹ v)) :
    (lanczosRun op inverse start iterations).Yields (fun run => ∀ u,
      least * (u ⬝ᵥ u) ≤ u ⬝ᵥ (run.tridiagonal.toMatrix *ᵥ u) ∧
        u ⬝ᵥ (run.tridiagonal.toMatrix *ᵥ u) ≤ most * (u ⬝ᵥ u)) ∧
    ∀ extremes, ExactFor extremes op inverse start iterations →
      (cgEstimate extremes op inverse start iterations).Yields fun pair =>
        least ≤ pair.1 ∧ pair.1 ≤ pair.2 ∧ pair.2 ≤ most := by
  have definite := positiveDefinite_diagonal (entries inverse) scaled
  have nonzero (i : Fin n) : entries inverse i ≠ 0 := (scaled i).ne'
  have run : (lanczosRun op inverse start iterations).Yields fun run => ∀ u,
      least * (u ⬝ᵥ u) ≤ u ⬝ᵥ (run.tridiagonal.toMatrix *ᵥ u) ∧
        u ⬝ᵥ (run.tridiagonal.toMatrix *ᵥ u) ≤ most * (u ⬝ᵥ u) := by
    have represents := lanczosRun_represents roots alone acts positive definite start iterations
    refine ((lanczosRun_sound op inverse start iterations).and represents).mono ?_
    rintro run ⟨sound, represents⟩ u
    obtain ⟨v, length, energy⟩ := represents.exists_energy_eq sound nonzero u
    rw [← length, ← energy]
    exact ⟨lower v, upper v⟩
  refine ⟨run, fun extremes exact => exact.cgEstimate run fun taken pair bounds found => ?_⟩
  exact ⟨found.lower_le fun u => (bounds u).1, found.le,
    found.le_upper fun u => (bounds u).2⟩

/-- A diagonal map on real numbers, scaled by a diagonal to eigenvalues 3 and 5, between
which both estimates lie. -/
theorem cgEstimate_within_bounds_diagonal :
    (cgEstimate Tridiagonal.exactExtremes (Operator.ofAction (diagonal ![(3 : ℝ), 10]) Unit)
      #v[1, 1 / 2] #v[1, 1] 2).Attains fun pair => 3 ≤ pair.1 ∧ pair.1 ≤ pair.2 ∧ pair.2 ≤ 5 := by
  set op := Operator.ofAction (diagonal ![(3 : ℝ), 10]) Unit with op_eq
  have linear : op.Realizes (diagonal ![(3 : ℝ), 10]) := Operator.realizes_ofAction _ Unit
  have entries_eq (a b : ℝ) : entries #v[a, b] = ![a, b] := by
    funext i
    fin_cases i <;> rfl
  have positive : PositiveDefinite (diagonal ![(3 : ℝ), 10]) := by
    refine positiveDefinite_diagonal _ fun i => ?_
    fin_cases i <;> norm_num
  have scaled (i : Fin 2) : 0 < entries #v[(1 : ℝ), 1 / 2] i := by
    rw [entries_eq]
    fin_cases i <;> norm_num
  have energy_eq (v : Fin 2 → ℝ) :
      v ⬝ᵥ diagonal ![(3 : ℝ), 10] v = 3 * (v 0 * v 0) + 10 * (v 1 * v 1) := by
    simp [dotProduct, Fin.sum_univ_two, diagonal]
    ring
  have length_eq (v : Fin 2 → ℝ) :
      v ⬝ᵥ diagonal (entries #v[(1 : ℝ), 1 / 2])⁻¹ v = v 0 * v 0 + 2 * (v 1 * v 1) := by
    simp [dotProduct, Fin.sum_univ_two, diagonal, entries_eq]
    ring
  have lower (v : Fin 2 → ℝ) : 3 * (v ⬝ᵥ diagonal (entries #v[(1 : ℝ), 1 / 2])⁻¹ v) ≤
      v ⬝ᵥ diagonal ![(3 : ℝ), 10] v := by
    rw [energy_eq, length_eq]
    linarith [mul_self_nonneg (v 1)]
  have upper (v : Fin 2 → ℝ) : v ⬝ᵥ diagonal ![(3 : ℝ), 10] v ≤
      5 * (v ⬝ᵥ diagonal (entries #v[(1 : ℝ), 1 / 2])⁻¹ v) := by
    rw [energy_eq, length_eq]
    linarith [mul_self_nonneg (v 0)]
  have alone : op.comm = .serial := rfl
  have within := (cgEstimate_within_bounds squareRoots_real alone linear.actsAs positive
    #v[1, 1 / 2] #v[1, 1] 2 scaled lower upper).2 _ (exactFor_exactExtremes op _ _ 2)
  have length : 0 < op.comm.dot #v[1, 1] (hadamard #v[1, 1 / 2] #v[1, 1]) := by
    rw [alone, dot_serial, entries_hadamard, entries_eq, entries_eq]
    norm_num [dotProduct, Fin.sum_univ_two]
  have energy : (op.apply (hadamard #v[1, 1 / 2] #v[1, 1])).Yields fun image =>
      0 < op.comm.dot (hadamard #v[1, 1 / 2] #v[1, 1]) image := by
    refine (linear _).yields.mono fun image known => ?_
    rw [alone, dot_serial, known, energy_eq, entries_hadamard,
      entries_eq, entries_eq]
    norm_num
  have ends := cgEstimate_attains Tridiagonal.exactExtremes
    (fun v => (linear v).mono fun _ _ => trivial) length energy 1
  exact (ends.and within).mono fun _ facts => facts.2

end Represents

end HexSlab

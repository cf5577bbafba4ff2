import HexSlab.Proofs.Smoother.ChebyshevSymmetry
import Mathlib.LinearAlgebra.Eigenspace.Minpoly

/-!
# A Chebyshev smoother damps what it claims to

Between minus one and one the Chebyshev polynomials stay there, and above one they
grow with their argument. On an eigenvector of the scaled operator the smoother
multiplies the error by the polynomial at the place of the eigenvalue, over the
polynomial at the center of the interval. So each component with an eigenvalue that
is positive and not above the interval shrinks, and one with an eigenvalue inside
the interval shrinks at least by the value at the center.
-/

namespace HexSlab

open Polynomial

section Identities

variable {R : Type} [CommRing R]

/-- The polynomials of both kinds satisfy Pell's equation. -/
theorem chebyshevAt_sq_add (a : R) (degree : Nat) :
    chebyshevAt R a (degree + 1) ^ 2 +
      (1 - a ^ 2) * ((Polynomial.Chebyshev.U R degree).eval a) ^ 2 = 1 := by
  induction degree with
  | zero =>
    rw [chebyshevAt_one, Nat.cast_zero, Polynomial.Chebyshev.U_zero, eval_one]
    ring
  | succ degree ih =>
    have value (k : Nat) : chebyshevAt R a k = (Polynomial.Chebyshev.T R k).eval a := by
      rw [chebyshevAt, Polynomial.coe_aeval_eq_eval]
    have first : chebyshevAt R a (degree + 1 + 1) = a * chebyshevAt R a (degree + 1) -
        (1 - a ^ 2) * (Polynomial.Chebyshev.U R degree).eval a := by
      have next : ((degree + 1 + 1 : Nat) : Int) = (degree : Int) + 2 := by push_cast; ring
      rw [value, value, next, Polynomial.Chebyshev.T_eq_X_mul_T_sub_pol_U]
      simp only [eval_sub, eval_mul, eval_X, eval_one, eval_pow, Nat.cast_succ]
    have second : (Polynomial.Chebyshev.U R (degree + 1 : Nat)).eval a =
        a * (Polynomial.Chebyshev.U R degree).eval a + chebyshevAt R a (degree + 1) := by
      rw [value, Nat.cast_succ, Polynomial.Chebyshev.U_eq_X_mul_U_add_T]
      simp only [eval_add, eval_mul, eval_X]
    refine Eq.trans ?_ ih
    rw [first, second]
    ring

/-- A step of the recurrence as a step of the differences. -/
theorem chebyshevAt_difference (a : R) (degree : Nat) :
    chebyshevAt R a (degree + 2) - chebyshevAt R a (degree + 1) =
      chebyshevAt R a (degree + 1) - chebyshevAt R a degree +
        2 * (a - 1) * chebyshevAt R a (degree + 1) := by
  rw [chebyshevAt_add_two]
  ring

end Identities

section Range

variable {R : Type} [Field R] [LinearOrder R] [IsStrictOrderedRing R]

/-- Between minus one and one the polynomials stay there. -/
theorem abs_chebyshevAt_le_one {a : R} (lower : -1 ≤ a) (upper : a ≤ 1) (degree : Nat) :
    |chebyshevAt R a degree| ≤ 1 := by
  cases degree with
  | zero => rw [chebyshevAt_zero, abs_one]
  | succ degree =>
    have inside : 0 ≤ 1 - a ^ 2 := by nlinarith
    have rest := mul_nonneg inside (sq_nonneg ((Polynomial.Chebyshev.U R degree).eval a))
    have square : chebyshevAt R a (degree + 1) ^ 2 ≤ 1 := by
      linarith [chebyshevAt_sq_add a degree]
    exact (sq_le_one_iff_abs_le_one _).mp square

/-- Above one the polynomials of a positive degree lie above one. -/
theorem one_lt_chebyshevAt {s : R} (above : 1 < s) {degree : Nat} (positive : degree ≠ 0) :
    1 < chebyshevAt R s degree := by
  have grows : StrictMono (chebyshevAt R s) :=
    strictMono_nat_of_lt_succ fun k => (chebyshevAt_pos_lt above k).2
  rw [← chebyshevAt_zero R s]
  exact grows (Nat.pos_of_ne_zero positive)

/-- Above one the polynomials grow with their argument, and their differences do. -/
theorem chebyshevAt_le_and_difference_lt {a s : R} (above : 1 < a) (less : a < s)
    (degree : Nat) :
    chebyshevAt R a degree ≤ chebyshevAt R s degree ∧
      chebyshevAt R a (degree + 1) - chebyshevAt R a degree <
        chebyshevAt R s (degree + 1) - chebyshevAt R s degree := by
  induction degree with
  | zero =>
    rw [chebyshevAt_zero, chebyshevAt_zero, chebyshevAt_one, chebyshevAt_one]
    exact ⟨le_rfl, sub_lt_sub_right less 1⟩
  | succ degree ih =>
    have next : chebyshevAt R a (degree + 1) ≤ chebyshevAt R s (degree + 1) := by
      linarith [ih.1, ih.2]
    have factor : 0 ≤ 2 * (s - 1) := by linarith
    have product : 2 * (a - 1) * chebyshevAt R a (degree + 1) ≤
        2 * (s - 1) * chebyshevAt R s (degree + 1) :=
      mul_le_mul (by linarith) next (chebyshevAt_pos above (degree + 1)).le factor
    refine ⟨next, ?_⟩
    rw [chebyshevAt_difference, chebyshevAt_difference]
    linarith [ih.2]

/-- From minus one up to a number above one the polynomials stay below their value
there. -/
theorem abs_chebyshevAt_lt {a s : R} (lower : -1 ≤ a) (less : a < s) (above : 1 < s)
    {degree : Nat} (positive : degree ≠ 0) :
    |chebyshevAt R a degree| < chebyshevAt R s degree := by
  rcases le_or_gt a 1 with inside | outside
  · exact (abs_chebyshevAt_le_one lower inside degree).trans_lt (one_lt_chebyshevAt above positive)
  · obtain ⟨before, rfl⟩ := Nat.exists_eq_succ_of_ne_zero positive
    obtain ⟨below, difference⟩ := chebyshevAt_le_and_difference_lt outside less before
    rw [abs_of_pos (chebyshevAt_pos outside (before + 1))]
    linarith

end Range

namespace ChebyshevBounds

variable {R : Type} [Field R]

/-- The place of an eigenvalue when the damped interval is moved to that from minus
one to one. -/
def position (bounds : ChebyshevBounds R) (eigenvalue : R) : R :=
  bounds.delta * (bounds.theta - eigenvalue)

variable [LinearOrder R] [IsStrictOrderedRing R] {bounds : ChebyshevBounds R} {eigenvalue : R}

/-- The place of an eigenvalue in terms of the ends of the interval. -/
theorem Sound.position_eq (sound : bounds.Sound) (eigenvalue : R) :
    bounds.position eigenvalue =
      (bounds.beta + bounds.alpha - 2 * eigenvalue) / (bounds.beta - bounds.alpha) := by
  have length : bounds.beta - bounds.alpha ≠ 0 := (sub_pos.mpr sound.alpha_lt_beta).ne'
  rw [position, sound.delta_eq, sound.theta_eq]
  field_simp

/-- An eigenvalue that is not above the interval has its place from minus one up. -/
theorem Sound.neg_one_le_position (sound : bounds.Sound) (most : eigenvalue ≤ bounds.beta) :
    -1 ≤ bounds.position eigenvalue := by
  have length : 0 < bounds.beta - bounds.alpha := sub_pos.mpr sound.alpha_lt_beta
  rw [sound.position_eq, le_div_iff₀ length]
  linarith

/-- An eigenvalue that is not below the interval has its place up to one. -/
theorem Sound.position_le_one (sound : bounds.Sound) (least : bounds.alpha ≤ eigenvalue) :
    bounds.position eigenvalue ≤ 1 := by
  have length : 0 < bounds.beta - bounds.alpha := sub_pos.mpr sound.alpha_lt_beta
  rw [sound.position_eq, div_le_one length]
  linarith

/-- A positive eigenvalue has its place below that of zero. -/
theorem Sound.position_lt_s1 (sound : bounds.Sound) (positive : 0 < eigenvalue) :
    bounds.position eigenvalue < bounds.s1 := by
  have length : 0 < bounds.beta - bounds.alpha := sub_pos.mpr sound.alpha_lt_beta
  have delta : 0 < bounds.delta := by
    rw [sound.delta_eq]
    exact div_pos two_pos length
  rw [position, sound.s1_eq, mul_comm bounds.theta]
  exact mul_lt_mul_of_pos_left (sub_lt_self _ positive) delta

end ChebyshevBounds

namespace Chebyshev

open Vec

section Eigenvectors

variable {R : Type} [Field R] {n : Nat} {bounds : ChebyshevBounds R} {inverse : Vector R n}
  {action : Module.End R (Fin n → R)}

/-- The steps of the recurrence do not lead out of a subspace that holds the scaled
right-hand side and that the scaled operator takes into itself. -/
theorem recurrenceMap_apply_mem {subspace : Submodule R (Fin n → R)} {rhs : Fin n → R}
    (stable : ∀ u ∈ subspace, scaledAction inverse action u ∈ subspace)
    (start : diagonal (entries inverse) rhs ∈ subspace) (degrees : Nat)
    {iterate last : Module.End R (Fin n → R)} (rho : R) (iterateMem : iterate rhs ∈ subspace)
    (lastMem : last rhs ∈ subspace) :
    recurrenceMap bounds inverse action degrees iterate last rho rhs ∈ subspace := by
  induction degrees generalizing iterate last rho with
  | zero => exact iterateMem
  | succ degrees ih =>
    have residual : (diagonal (entries inverse) - scaledAction inverse action * iterate) rhs ∈
        subspace :=
      subspace.sub_mem start (stable _ iterateMem)
    have update (a b : R) : (a • (diagonal (entries inverse) -
        scaledAction inverse action * iterate) + b • last) rhs ∈ subspace :=
      subspace.add_mem (subspace.smul_mem a residual) (subspace.smul_mem b lastMem)
    exact ih _ (subspace.add_mem iterateMem (update _ _)) (update _ _)

/-- So all steps from zero lead to a vector of it. -/
theorem smoothMap_apply_mem {subspace : Submodule R (Fin n → R)} {rhs : Fin n → R}
    (stable : ∀ u ∈ subspace, scaledAction inverse action u ∈ subspace)
    (start : diagonal (entries inverse) rhs ∈ subspace) (degree : Nat) :
    smoothMap bounds inverse action degree rhs ∈ subspace := by
  have first : firstMap bounds inverse rhs ∈ subspace := subspace.smul_mem _ start
  exact recurrenceMap_apply_mem stable start _ _ first first

/-- A polynomial of the centered operator multiplies an eigenvector of the scaled
operator by its value at the place of the eigenvalue. -/
theorem chebyshevAt_centered_apply {v : Fin n → R} {eigenvalue : R}
    (eigen : scaledAction inverse action v = eigenvalue • v) (degree : Nat) :
    chebyshevAt R (centered bounds inverse action) degree v =
      chebyshevAt R (bounds.position eigenvalue) degree • v := by
  have place : centered bounds inverse action v = bounds.position eigenvalue • v := by
    rw [centered_apply, eigen, ← sub_smul, smul_smul]
    rfl
  rw [chebyshevAt, chebyshevAt, Module.End.aeval_apply_of_mem_apply_eq_smul place,
    Polynomial.coe_aeval_eq_eval]

/-- What is left of an eigenvector after a smoother of a degree was applied to its
image from zero: the polynomial at the place of the eigenvalue over that at the
center. -/
noncomputable def damping (bounds : ChebyshevBounds R) (degree : Nat) (eigenvalue : R) : R :=
  chebyshevAt R (bounds.position eigenvalue) degree / chebyshevAt R bounds.s1 degree

end Eigenvectors

variable {σ R : Type} [Field R] [LinearOrder R] [IsStrictOrderedRing R] {n : Nat}
  {bounds : ChebyshevBounds R} {inverse : Vector R n} {action : Module.End R (Fin n → R)}

/-- A multiple of an eigenvector whose scaled residual is the polynomial of the
centered operator is that eigenvector without what is left of it. -/
theorem eq_of_scaledResidual (sound : bounds.Sound) {v solved : Fin n → R} {eigenvalue : R}
    (eigen : scaledAction inverse action v = eigenvalue • v) (nonzero : eigenvalue ≠ 0)
    {degree : Nat} (multiple : solved ∈ Submodule.span R {v})
    (residual : chebyshevAt R bounds.s1 degree • scaledResidual inverse action (action v) solved =
      chebyshevAt R (centered bounds inverse action) degree
        (scaledResidual inverse action (action v) 0)) :
    solved = (1 - damping bounds degree eigenvalue) • v := by
  obtain ⟨factor, rfl⟩ := Submodule.mem_span_singleton.mp multiple
  have center := (chebyshevAt_pos sound.one_lt_s1 degree).ne'
  have left : scaledResidual inverse action (action v) (factor • v) =
      ((1 - factor) * eigenvalue) • v := by
    have whole : scaledResidual inverse action (action v) (factor • v) =
        scaledAction inverse action v - scaledAction inverse action (factor • v) := by
      rw [scaledResidual, mul_sub]
      rfl
    rw [whole, map_smul, eigen, smul_smul, ← sub_smul, sub_mul, one_mul]
  have start : scaledResidual inverse action (action v) 0 = eigenvalue • v := by
    rw [← eigen, scaledResidual, map_zero, sub_zero]
    rfl
  rw [left, start, map_smul, chebyshevAt_centered_apply eigen, smul_smul, smul_smul] at residual
  rcases eq_or_ne v 0 with rfl | some
  · rw [smul_zero, smul_zero]
  · have factors := smul_left_injective R some residual
    have equal : factor = 1 - damping bounds degree eigenvalue := by
      rw [damping]
      field_simp
      have scaled : eigenvalue * (factor * chebyshevAt R bounds.s1 degree) = eigenvalue *
          (chebyshevAt R bounds.s1 degree -
            chebyshevAt R (bounds.position eigenvalue) degree) := by
        linear_combination -factors
      exact mul_left_cancel₀ nonzero scaled
    rw [equal]

variable [Roots R]

/-- Outside the identity shortcut a smoother that starts from zero takes the image of
an eigenvector to the eigenvector without what is left of it, and counts the call. -/
theorem applyInverse_attains_damped (smoother : Chebyshev R n) (op : Operator σ R n)
    (linear : op.Realizes action) (sound : bounds.Sound)
    (computed : smoother.phase = .computed inverse bounds)
    (positive : smoother.params.degree ≠ 0) (outside : isIdentity smoother.params = false)
    (zeroStart : smoother.params.zeroStart = true) {v x : Vector R n} {eigenvalue : R}
    (eigen : scaledAction inverse action (entries v) = eigenvalue • entries v)
    (nonzero : eigenvalue ≠ 0) (image : entries x = action (entries v)) (y : Vector R n) :
    (smoother.applyInverse op x y).Attains fun result =>
      result.2 = smoother.recordApply ∧ entries result.1 =
        (1 - damping bounds smoother.params.degree eigenvalue) • entries v := by
  have polynomial := applyInverse_attains smoother op linear sound computed positive outside x y
  have map := applyInverse_attains_map smoother op linear computed zeroStart x y
  refine (polynomial.and map.yields).mono ?_
  rintro ⟨solved, after⟩ ⟨⟨counted, residual⟩, -, mapped⟩
  refine ⟨counted, ?_⟩
  rw [applicationMap, outside, if_neg Bool.false_ne_true, image] at mapped
  rw [zeroStart, image] at residual
  -- the line through the eigenvector is mapped into itself and holds the scaled right-hand side
  have stable : ∀ u ∈ Submodule.span R {entries v},
      scaledAction inverse action u ∈ Submodule.span R {entries v} := by
    intro u member
    obtain ⟨factor, rfl⟩ := Submodule.mem_span_singleton.mp member
    rw [map_smul, eigen, smul_smul]
    exact Submodule.mem_span_singleton.mpr ⟨_, rfl⟩
  have start : diagonal (entries inverse) (action (entries v)) ∈
      Submodule.span R {entries v} :=
    Submodule.mem_span_singleton.mpr ⟨eigenvalue, eigen.symm⟩
  have multiple : entries solved ∈ Submodule.span R {entries v} := by
    rw [mapped]
    exact smoothMap_apply_mem stable start smoother.params.degree
  exact eq_of_scaledResidual sound eigen nonzero multiple residual

/-- A Chebyshev smoother damps every eigenvector that it claims to. In exact
arithmetic, for every linear operator and every computed smoother of a positive
degree that starts from zero, outside the identity shortcut, and for every
eigenvector of the scaled operator with a positive eigenvalue that is not above the
interval: applied to the image of the eigenvector, the smoother succeeds with the
eigenvector less a part of it that is smaller, and smaller by the polynomial at the
center, which lies above one, if the eigenvalue lies in the interval. -/
theorem applyInverse_damps_eigenvector (smoother : Chebyshev R n) (op : Operator σ R n)
    (action : (Fin n → R) →ₗ[R] (Fin n → R)) (inverse : Vector R n) (lambdaMax ratio : R)
    (linear : op.Realizes action) (lambda_pos : 0 < lambdaMax) (ratio_pos : 0 < ratio)
    (interval : (ChebyshevBounds.ofSpectrum lambdaMax ratio).alpha <
      (ChebyshevBounds.ofSpectrum lambdaMax ratio).beta)
    (computed : smoother.phase = .computed inverse (.ofSpectrum lambdaMax ratio))
    (positive : 1 ≤ smoother.params.degree) (outside : isIdentity smoother.params = false)
    (zeroStart : smoother.params.zeroStart = true) (v x y : Vector R n) (eigenvalue : R)
    (eigen : scaledAction inverse action (entries v) = eigenvalue • entries v)
    (eigenvalue_pos : 0 < eigenvalue)
    (most : eigenvalue ≤ (ChebyshevBounds.ofSpectrum lambdaMax ratio).beta)
    (image : entries x = action (entries v)) (state : σ) :
    let bounds := ChebyshevBounds.ofSpectrum lambdaMax ratio
    let polynomial := Polynomial.Chebyshev.T R smoother.params.degree
    1 < polynomial.eval bounds.s1 ∧
      ∃ (q : R) (solved : Vector R n) (after : σ),
        (smoother.applyInverseChecked op x.toArray y.toArray).run state =
          (.ok (solved.toArray, smoother.recordApply), after) ∧
        entries solved = (1 - q) • entries v ∧ |q| < 1 ∧
        (bounds.alpha ≤ eigenvalue → |q| * polynomial.eval bounds.s1 ≤ 1) := by
  have sound := ChebyshevBounds.sound_ofSpectrum lambda_pos ratio_pos interval
  have degree := Nat.one_le_iff_ne_zero.mp positive
  have inner := applyInverse_attains_damped smoother op linear sound computed degree outside
    zeroStart eigen eigenvalue_pos.ne' image y
  obtain ⟨result, after, run, ⟨solved, counted⟩, rfl, rfl, damped⟩ :=
    applyInverseChecked_attains smoother op computed x y inner state
  have center := one_lt_chebyshevAt sound.one_lt_s1 degree
  have center_pos := zero_lt_one.trans center
  have center_eq : (Polynomial.Chebyshev.T R smoother.params.degree).eval
      (ChebyshevBounds.ofSpectrum lambdaMax ratio).s1 =
        chebyshevAt R (ChebyshevBounds.ofSpectrum lambdaMax ratio).s1 smoother.params.degree := by
    rw [chebyshevAt, Polynomial.coe_aeval_eq_eval]
  have size : |damping (.ofSpectrum lambdaMax ratio) smoother.params.degree eigenvalue| =
      |chebyshevAt R ((ChebyshevBounds.ofSpectrum lambdaMax ratio).position eigenvalue)
          smoother.params.degree| /
        chebyshevAt R (ChebyshevBounds.ofSpectrum lambdaMax ratio).s1 smoother.params.degree := by
    rw [damping, abs_div, abs_of_pos center_pos]
  have lower := sound.neg_one_le_position most
  dsimp only
  rw [center_eq]
  refine ⟨center, _, solved, after, run, damped, ?_, ?_⟩
  · rw [size, div_lt_one center_pos]
    exact abs_chebyshevAt_lt lower (sound.position_lt_s1 eigenvalue_pos) sound.one_lt_s1 degree
  · intro least
    rw [size, div_mul_cancel₀ _ center_pos.ne']
    exact abs_chebyshevAt_le_one lower (sound.position_le_one least) _

/-- An operator with the eigenvalues one and three. -/
def evenlyCoupled : (Fin 2 → Rat) →ₗ[Rat] (Fin 2 → Rat) := Matrix.mulVecLin !![2, 1; 1, 2]

/-- A computed smoother of degree three for it, with a zero start. -/
def evenlyCoupledCubic : Chebyshev Rat 2 :=
  ⟨⟨2, 0, 3 / 2, 3, 0, true, .given, 0⟩, .computed #v[1 / 2, 1 / 2] (.ofSpectrum (3 / 2) 2), .zero,
    none, .zero⟩

/-- The larger eigenvalue of the scaled operator, which lies in the damped interval. -/
theorem applyInverse_damps_eigenvector_upper :
    1 < (Polynomial.Chebyshev.T Rat 3).eval (ChebyshevBounds.ofSpectrum (3 / 2 : Rat) 2).s1 ∧
      ∃ (q : Rat) (solved : Vector Rat 2) (after : Unit),
        (evenlyCoupledCubic.applyInverseChecked (.ofAction evenlyCoupled Unit) #[3, 3]
            #[7, 8]).run () = (.ok (solved.toArray, evenlyCoupledCubic.recordApply), after) ∧
        entries solved = (1 - q) • entries #v[1, 1] ∧ |q| < 1 ∧
        ((ChebyshevBounds.ofSpectrum (3 / 2 : Rat) 2).alpha ≤ 3 / 2 →
          |q| * (Polynomial.Chebyshev.T Rat 3).eval
            (ChebyshevBounds.ofSpectrum (3 / 2 : Rat) 2).s1 ≤ 1) :=
  applyInverse_damps_eigenvector evenlyCoupledCubic (.ofAction evenlyCoupled Unit) evenlyCoupled
    #v[1 / 2, 1 / 2] (3 / 2) 2 (Operator.realizes_ofAction _ Unit) (by decide +kernel)
    (by decide +kernel) (by decide +kernel) rfl (by decide) (by decide +kernel) rfl #v[1, 1]
    #v[3, 3] #v[7, 8] (3 / 2) (by decide +kernel) (by decide +kernel) (by decide +kernel)
    (by decide +kernel) ()

end Chebyshev

end HexSlab

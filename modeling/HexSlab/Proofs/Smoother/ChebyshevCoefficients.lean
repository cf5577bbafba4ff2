import HexSlab.Proofs.Exact
import HexSlab.Smoother.Chebyshev
import Mathlib.RingTheory.Polynomial.Chebyshev
import Mathlib.Tactic.FieldSimp
import Mathlib.Tactic.Linarith

/-!
# The coefficients of the Chebyshev recurrence

Above one the Chebyshev polynomials are positive and grow with the degree. The
center of an interval of positive numbers, over half its length, lies above
one, and there the coefficients of the recurrence are the quotients of
consecutive polynomials. So none of the divisors that produce them is zero.
-/

namespace HexSlab

open Polynomial

section Values

variable (R : Type) {A : Type} [CommRing R] [Ring A] [Algebra R A]

/-- The Chebyshev polynomial of the first kind of a degree, at an element of an
algebra. -/
noncomputable def chebyshevAt (a : A) (degree : Nat) : A :=
  aeval a (Polynomial.Chebyshev.T R degree)

/-- The polynomial of degree zero is one. -/
theorem chebyshevAt_zero (a : A) : chebyshevAt R a 0 = 1 := by
  rw [chebyshevAt, Nat.cast_zero, Polynomial.Chebyshev.T_zero, map_one]

/-- The polynomial of degree one is its argument. -/
theorem chebyshevAt_one (a : A) : chebyshevAt R a 1 = a := by
  rw [chebyshevAt, Nat.cast_one, Polynomial.Chebyshev.T_one, aeval_X]

/-- Three consecutive polynomials are related. -/
theorem chebyshevAt_add_two (a : A) (degree : Nat) :
    chebyshevAt R a (degree + 2) =
      2 * a * chebyshevAt R a (degree + 1) - chebyshevAt R a degree := by
  have next : ((degree + 2 : Nat) : Int) = (degree : Int) + 2 := by push_cast; rfl
  have middle : ((degree + 1 : Nat) : Int) = (degree : Int) + 1 := by push_cast; rfl
  rw [chebyshevAt, chebyshevAt, chebyshevAt, next, middle, Polynomial.Chebyshev.T_add_two, map_sub,
    map_mul, map_mul, map_ofNat, aeval_X]

end Values

section Growth

variable {R : Type} [Field R] [LinearOrder R] [IsStrictOrderedRing R]

/-- Above one the polynomials are positive and grow with the degree. -/
theorem chebyshevAt_pos_lt {s : R} (above : 1 < s) (degree : Nat) :
    0 < chebyshevAt R s degree ∧ chebyshevAt R s degree < chebyshevAt R s (degree + 1) := by
  induction degree with
  | zero =>
    rw [chebyshevAt_zero, chebyshevAt_one]
    exact ⟨zero_lt_one, above⟩
  | succ degree ih =>
    have pos : 0 < chebyshevAt R s (degree + 1) := ih.1.trans ih.2
    have twice : chebyshevAt R s (degree + 1) < s * chebyshevAt R s (degree + 1) :=
      (lt_mul_iff_one_lt_left pos).mpr above
    refine ⟨pos, ?_⟩
    rw [chebyshevAt_add_two]
    linarith [ih.2]

/-- Above one the polynomials are positive. -/
theorem chebyshevAt_pos {s : R} (above : 1 < s) (degree : Nat) : 0 < chebyshevAt R s degree :=
  (chebyshevAt_pos_lt above degree).1

end Growth

namespace ChebyshevBounds

variable {R : Type} [Field R] [LinearOrder R]

/-- The bounds are those of an interval of positive numbers. -/
structure Sound (bounds : ChebyshevBounds R) : Prop where
  /-- The lower end is positive. -/
  alpha_pos : 0 < bounds.alpha
  /-- There is an interval. -/
  alpha_lt_beta : bounds.alpha < bounds.beta
  /-- Two over the length. -/
  delta_eq : bounds.delta = 2 / (bounds.beta - bounds.alpha)
  /-- The center. -/
  theta_eq : bounds.theta = 1 / 2 * (bounds.beta + bounds.alpha)
  /-- The center over half the length. -/
  s1_eq : bounds.s1 = bounds.theta * bounds.delta

variable [IsStrictOrderedRing R]

/-- The center of a sound interval is positive. -/
theorem Sound.theta_pos {bounds : ChebyshevBounds R} (sound : bounds.Sound) : 0 < bounds.theta := by
  have upper : 0 < bounds.beta := sound.alpha_pos.trans sound.alpha_lt_beta
  rw [sound.theta_eq]
  exact mul_pos one_half_pos (add_pos upper sound.alpha_pos)

/-- The center of a sound interval lies above one when it is measured by half
the length. -/
theorem Sound.one_lt_s1 {bounds : ChebyshevBounds R} (sound : bounds.Sound) : 1 < bounds.s1 := by
  have length : 0 < bounds.beta - bounds.alpha := sub_pos.mpr sound.alpha_lt_beta
  have quotient : bounds.s1 = (bounds.beta + bounds.alpha) / (bounds.beta - bounds.alpha) := by
    rw [sound.s1_eq, sound.theta_eq, sound.delta_eq]
    field_simp
  rw [quotient, one_lt_div length]
  linarith [sound.alpha_pos]

/-- The divisor of the next coefficient, where a coefficient is the quotient of
consecutive polynomials. -/
theorem Sound.divisor_eq {bounds : ChebyshevBounds R} (sound : bounds.Sound) (step : Nat) :
    2 * bounds.s1 - chebyshevAt R bounds.s1 step / chebyshevAt R bounds.s1 (step + 1) =
      chebyshevAt R bounds.s1 (step + 2) / chebyshevAt R bounds.s1 (step + 1) := by
  have nonzero := (chebyshevAt_pos sound.one_lt_s1 (step + 1)).ne'
  rw [chebyshevAt_add_two]
  field_simp

variable [Roots R]

/-- The bounds for a positive eigenvalue and a positive ratio are sound as soon
as there is an interval. -/
theorem sound_ofSpectrum {lambdaMax ratio : R} (lambda_pos : 0 < lambdaMax) (ratio_pos : 0 < ratio)
    (interval : (ofSpectrum lambdaMax ratio).alpha < (ofSpectrum lambdaMax ratio).beta) :
    (ofSpectrum lambdaMax ratio).Sound where
  alpha_pos := div_pos lambda_pos ratio_pos
  alpha_lt_beta := interval
  delta_eq := by
    simp only [ofSpectrum, Scalar.two_eq]
  theta_eq := by
    simp only [ofSpectrum, Scalar.two_eq]
  s1_eq := rfl

/-- The coefficient of the recurrence after a number of steps. -/
def coefficient (bounds : ChebyshevBounds R) : Nat → R
  | 0 => 1 / bounds.s1
  | step + 1 => 1 / (Scalar.two * bounds.s1 - coefficient bounds step)

/-- No divisor of the recurrence vanishes, in any of its steps. -/
structure NeverDividesByZero (bounds : ChebyshevBounds R) : Prop where
  /-- The divisor of the first update. -/
  theta : bounds.theta ≠ 0
  /-- The divisor of the first coefficient. -/
  s1 : bounds.s1 ≠ 0
  /-- The divisors of the later coefficients. -/
  later : ∀ step, Scalar.two * bounds.s1 - bounds.coefficient step ≠ 0

/-- The coefficients are the quotients of consecutive polynomials. -/
theorem Sound.coefficient_eq {bounds : ChebyshevBounds R} (sound : bounds.Sound) (step : Nat) :
    bounds.coefficient step =
      chebyshevAt R bounds.s1 step / chebyshevAt R bounds.s1 (step + 1) := by
  induction step with
  | zero => rw [coefficient, chebyshevAt_zero, chebyshevAt_one]
  | succ step ih =>
    rw [coefficient, Scalar.two_eq, ih, sound.divisor_eq, one_div_div]

/-- With sound bounds no divisor of the recurrence vanishes. -/
theorem Sound.neverDividesByZero {bounds : ChebyshevBounds R} (sound : bounds.Sound) :
    bounds.NeverDividesByZero where
  theta := sound.theta_pos.ne'
  s1 := (zero_lt_one.trans sound.one_lt_s1).ne'
  later := by
    intro step
    rw [Scalar.two_eq, sound.coefficient_eq, sound.divisor_eq]
    exact div_ne_zero (chebyshevAt_pos sound.one_lt_s1 (step + 2)).ne'
      (chebyshevAt_pos sound.one_lt_s1 (step + 1)).ne'

end ChebyshevBounds

end HexSlab

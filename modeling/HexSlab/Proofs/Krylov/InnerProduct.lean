import HexSlab.Proofs.Exact
import Mathlib.Analysis.Real.Sqrt
import Mathlib.LinearAlgebra.Matrix.DotProduct

/-!
# The inner product of a solver

On one process the inner product of two vectors is that of their entries. Where
the scalars have square roots, the Euclidean length is the root of the inner
product of a vector with itself, and it orders vectors as that product does.
-/

namespace HexSlab

/-- Every scalar that is not negative has its square root, which is not
negative either. -/
structure SquareRoots (R : Type) [Field R] [LinearOrder R] [Roots R] : Prop where
  /-- A root is not negative. -/
  nonneg : ∀ a : R, 0 ≤ a → 0 ≤ Roots.sqrt a
  /-- The square of a root is the scalar. -/
  mul_self : ∀ a : R, 0 ≤ a → Roots.sqrt a * Roots.sqrt a = a

/-- Every two scalars have a length, whose square is the sum of their squares. -/
def Hypotenuses (R : Type) [Field R] [Roots R] : Prop :=
  ∀ a b : R, Roots.hypot a b * Roots.hypot a b = a * a + b * b

/-- Real numbers with their roots. -/
noncomputable instance : Roots ℝ where
  sqrt := Real.sqrt
  hypot := fun a b => Real.sqrt (a * a + b * b)

/-- Real numbers have square roots. -/
theorem squareRoots_real : SquareRoots ℝ where
  nonneg := fun a _ => Real.sqrt_nonneg a
  mul_self := fun _ nonneg => Real.mul_self_sqrt nonneg

/-- Two real numbers have a length. -/
theorem hypotenuses_real : Hypotenuses ℝ := fun a b =>
  Real.mul_self_sqrt (add_nonneg (mul_self_nonneg a) (mul_self_nonneg b))

/-- A root is zero for zero only. -/
theorem SquareRoots.eq_zero_iff {R : Type} [Field R] [LinearOrder R] [Roots R]
    (roots : SquareRoots R) (a : R) (nonneg : 0 ≤ a) : Roots.sqrt a = 0 ↔ a = 0 := by
  rw [← mul_self_eq_zero, roots.mul_self a nonneg]

namespace Vec

/-- Multiplying entry by entry may be moved from one side of an inner product to
the other. -/
theorem diagonal_dotProduct {R : Type} [Field R] {n : Nat} (d u v : Fin n → R) :
    diagonal d u ⬝ᵥ v = u ⬝ᵥ diagonal d v := by
  refine Finset.sum_congr rfl fun i _ => ?_
  show d i * u i * v i = u i * (d i * v i)
  ring

variable {R : Type} [Field R] [LinearOrder R] {n : Nat}

/-- The inner product in one process is that of the entries. -/
theorem dot_serial [Roots R] (x y : Vector R n) :
    Communicator.serial.dot x y = entries x ⬝ᵥ entries y :=
  dot_eq_sum x y

variable [IsStrictOrderedRing R]

/-- The inner product of a vector with itself is not negative. -/
theorem dotProduct_self_nonneg (v : Fin n → R) : 0 ≤ v ⬝ᵥ v :=
  Finset.sum_nonneg fun i _ => mul_self_nonneg (v i)

/-- It is positive for every vector but zero. -/
theorem dotProduct_self_pos {v : Fin n → R} (nonzero : v ≠ 0) : 0 < v ⬝ᵥ v := by
  have square : v ⬝ᵥ v ≠ 0 := fun zero => nonzero (dotProduct_self_eq_zero.mp zero)
  exact lt_of_le_of_ne (dotProduct_self_nonneg v) square.symm

variable [Roots R]

/-- The length of a vector is not negative. -/
theorem euclidean_nonneg (roots : SquareRoots R) (v : Fin n → R) : 0 ≤ euclidean v :=
  roots.nonneg _ (dotProduct_self_nonneg v)

/-- The square of the length is the inner product of the vector with itself. -/
theorem euclidean_mul_self (roots : SquareRoots R) (v : Fin n → R) :
    euclidean v * euclidean v = v ⬝ᵥ v :=
  roots.mul_self _ (dotProduct_self_nonneg v)

/-- Only the zero vector has no length. -/
theorem euclidean_eq_zero (roots : SquareRoots R) (v : Fin n → R) : euclidean v = 0 ↔ v = 0 :=
  euclidean_eq_zero_iff roots.eq_zero_iff v

/-- The length is the absolute value of a number with the right square. -/
theorem euclidean_eq_abs (roots : SquareRoots R) {v : Fin n → R} {a : R}
    (square : v ⬝ᵥ v = a * a) : euclidean v = |a| := by
  have squares : euclidean v * euclidean v = |a| * |a| := by
    rw [euclidean_mul_self roots, square, abs_mul_abs_self]
  exact (mul_self_inj (euclidean_nonneg roots v) (abs_nonneg a)).mp squares

/-- A vector is no longer than its sum with an orthogonal one. -/
theorem euclidean_le_add (roots : SquareRoots R) {u v : Fin n → R} (apart : u ⬝ᵥ v = 0) :
    euclidean v ≤ euclidean (u + v) := by
  have sides : (u + v) ⬝ᵥ (u + v) = u ⬝ᵥ u + v ⬝ᵥ v := by
    rw [add_dotProduct, dotProduct_add, dotProduct_add, dotProduct_comm v u, apart, add_zero,
      zero_add]
  rw [mul_self_le_mul_self_iff (euclidean_nonneg roots v) (euclidean_nonneg roots (u + v)),
    euclidean_mul_self roots, euclidean_mul_self roots, sides]
  exact le_add_of_nonneg_left (dotProduct_self_nonneg u)

/-- A vector is its length times the vector brought to unit length. -/
theorem norm_smul_divBy (roots : SquareRoots R) (r : Vector R n) :
    euclidean (entries r) • entries (divBy r (euclidean (entries r))) = entries r := by
  by_cases none : euclidean (entries r) = 0
  · rw [none, zero_smul, (euclidean_eq_zero roots _).mp none]
  · rw [entries_divBy, smul_smul, mul_inv_cancel₀ none, one_smul]

/-- A vector that was brought to unit length has it, unless it is zero. -/
theorem dotProduct_divBy (roots : SquareRoots R) (r : Vector R n)
    (remains : euclidean (entries r) ≠ 0) :
    entries (divBy r (euclidean (entries r))) ⬝ᵥ entries (divBy r (euclidean (entries r))) = 1 := by
  rw [entries_divBy, smul_dotProduct, dotProduct_smul, ← euclidean_mul_self roots, smul_eq_mul,
    smul_eq_mul, inv_mul_cancel_left₀ remains, inv_mul_cancel₀ remains]

end Vec

section PositiveDefinite

variable {R : Type} [Field R] [LinearOrder R] {n : Nat}

/-- A linear map is symmetric and positive definite. -/
structure PositiveDefinite (action : (Fin n → R) →ₗ[R] (Fin n → R)) : Prop where
  /-- The map is its own transpose. -/
  symmetric : ∀ u v, action u ⬝ᵥ v = u ⬝ᵥ action v
  /-- Every vector but zero has positive energy. -/
  positive : ∀ v, v ≠ 0 → 0 < v ⬝ᵥ action v

variable [IsStrictOrderedRing R]

/-- The identity is positive definite. -/
theorem positiveDefinite_id : PositiveDefinite (LinearMap.id : (Fin n → R) →ₗ[R] (Fin n → R)) where
  symmetric := fun _ _ => rfl
  positive := fun _ nonzero => Vec.dotProduct_self_pos nonzero

/-- Multiplying by positive numbers, entry by entry, is positive definite. -/
theorem positiveDefinite_diagonal (d : Fin n → R) (positive : ∀ i, 0 < d i) :
    PositiveDefinite (Vec.diagonal d) where
  symmetric := Vec.diagonal_dotProduct d
  positive := by
    intro v nonzero
    obtain ⟨i, remains⟩ := Function.ne_iff.mp nonzero
    have term (j : Fin n) : v j * (d j * v j) = d j * (v j * v j) := by ring
    refine Finset.sum_pos' (fun j _ => ?_) ⟨i, Finset.mem_univ i, ?_⟩
    · show 0 ≤ v j * (d j * v j)
      rw [term]
      exact mul_nonneg (positive j).le (mul_self_nonneg (v j))
    · show 0 < v i * (d i * v i)
      rw [term]
      exact mul_pos (positive i) (mul_self_pos.mpr remains)

end PositiveDefinite

end HexSlab

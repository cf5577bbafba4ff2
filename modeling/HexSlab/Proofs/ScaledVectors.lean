import HexSlab.Proofs.InStep
import HexSlab.Proofs.Krylov.InnerProduct
import Mathlib.Tactic.FieldSimp

/-!
# Vectors and inner products that differ by a factor

In a run whose processes all hold the same data every inner product is a multiple
of the one on a single process, and every norm is a multiple by the root of the
same factor. Vectors brought to unit length are then shorter, by that root. The
entrywise operations and linear operators keep such a factor, and the inner
product of two shorter vectors is again the one on a single process.
-/

namespace HexSlab

namespace Vec

/-- The entries of the second vector are those of the first by a factor. -/
def Scaled {R : Type} [Field R] {n : Nat} (k : R) (x y : Vector R n) : Prop :=
  entries y = k • entries x

variable {R : Type} [Field R] {n : Nat} {k : R} {x x' y y' : Vector R n}

/-- By the factor one only the vector itself. -/
theorem scaled_one_iff : Scaled 1 x y ↔ x = y := by
  rw [Scaled, one_smul, entries_inj, eq_comm]

/-- The same holds for the inverse of one. -/
theorem scaled_inv_one_iff : Scaled (1 : R)⁻¹ x y ↔ x = y := by
  rw [inv_one, scaled_one_iff]

/-- A vector is itself by the factor one. -/
theorem scaled_refl (x : Vector R n) : Scaled 1 x x := scaled_one_iff.mpr rfl

/-- The entries of a scaled vector. -/
theorem Scaled.entry (scaled : Scaled k x y) (i : Fin n) : entries y i = k * entries x i :=
  congrFun scaled i

/-- Reading a scaled vector at a place, inside or not. -/
theorem Scaled.getElem?_eq (scaled : Scaled k x y) (i : Nat) :
    y[i]? = (x[i]?).map (k * ·) := by
  by_cases inside : i < n
  · rw [Vector.getElem?_eq_getElem inside, Vector.getElem?_eq_getElem inside, Option.map_some]
    exact congrArg some (scaled.entry ⟨i, inside⟩)
  · rw [Vector.getElem?_eq_none (Nat.le_of_not_lt inside),
      Vector.getElem?_eq_none (Nat.le_of_not_lt inside), Option.map_none]

/-- Sums of scaled vectors are scaled. -/
theorem Scaled.add (first : Scaled k x x') (second : Scaled k y y') :
    Scaled k (x + y) (x' + y') := by
  rw [Scaled, entries_add, entries_add, first, second, smul_add]

/-- So are differences. -/
theorem Scaled.sub (first : Scaled k x x') (second : Scaled k y y') :
    Scaled k (x - y) (x' - y') := by
  rw [Scaled, entries_sub, entries_sub, first, second, smul_sub]

/-- The zero vector is itself by any factor. -/
theorem scaled_zero (k : R) : Scaled k (fill 0 : Vector R n) (fill 0) := by
  rw [Scaled, entries_zero, smul_zero]

variable [LinearOrder R] [Roots R]

/-- Combinations of scaled vectors are scaled. -/
theorem Scaled.axpy (first : Scaled k x x') (second : Scaled k y y') (a b : R) :
    Scaled k (axpy a x b y) (axpy a x' b y') := by
  rw [Scaled, entries_axpy, entries_axpy, first, second, smul_add, smul_comm k a, smul_comm k b]

/-- A step along a scaled vector is the step along the vector itself whose length
makes good for the factor. -/
theorem Scaled.axpy_eq (scaled : Scaled k x x') {a a' : R} (step : a' * k = a)
    (y : Vector R n) : Vec.axpy a' x' 1 y = Vec.axpy a x 1 y := by
  rw [← entries_inj, entries_axpy, entries_axpy, scaled, smul_smul, step]

/-- Entrywise products with one vector are scaled. -/
theorem Scaled.hadamard (second : Scaled k y y') (x : Vector R n) :
    Scaled k (hadamard x y) (hadamard x y') := by
  rw [Scaled, entries_hadamard, entries_hadamard, second, mul_smul_comm]

/-- On the other side too. -/
theorem Scaled.hadamard_right (first : Scaled k x x') (y : Vector R n) :
    Scaled k (Vec.hadamard x y) (Vec.hadamard x' y) := by
  rw [Scaled, entries_hadamard, entries_hadamard, first, smul_mul_assoc]

/-- So are quotients by one number. -/
theorem Scaled.divBy (scaled : Scaled k x x') (divisor : R) :
    Scaled k (divBy x divisor) (divBy x' divisor) := by
  rw [Scaled, entries_divBy, entries_divBy, scaled, smul_comm]

/-- Dividing one vector by two numbers leaves the inverse of their quotient. -/
theorem scaled_divBy (x : Vector R n) (c divisor : R) :
    Scaled c⁻¹ (Vec.divBy x divisor) (Vec.divBy x (c * divisor)) := by
  rw [Scaled, entries_divBy, entries_divBy, mul_inv, mul_smul]

end Vec

open Vec

section Reductions

variable {R : Type} [Field R] [LinearOrder R] [Roots R] {n : Nat}

/-- Inner products and norms of a run are multiples of those of another: the norm
by a positive factor, and the inner product by its square. For vectors that are
shorter by the factor the inner product is the same. -/
structure Communicator.Multiplies (comm copy : Communicator R) (c : R) (n : Nat) : Prop where
  /-- The factor is positive. -/
  positive : 0 < c
  /-- The inner product of given vectors. -/
  dot_eq : ∀ x y : Vector R n, copy.dot x y = c * c * comm.dot x y
  /-- The norm of a given vector. -/
  norm_eq : ∀ x : Vector R n, copy.norm x = c * comm.norm x
  /-- The inner product of shorter vectors. -/
  dot_scaled : ∀ {x x' y y' : Vector R n}, Scaled c⁻¹ x x' → Scaled c⁻¹ y y' →
    copy.dot x' y' = comm.dot x y

/-- The norm of a vector that is shorter by the factor is the same. -/
theorem Communicator.Multiplies.norm_scaled {comm copy : Communicator R} {c : R}
    (multiplies : comm.Multiplies copy c n) {x x' : Vector R n} (scaled : Scaled c⁻¹ x x') :
    copy.norm x' = comm.norm x :=
  congrArg Roots.sqrt (multiplies.dot_scaled scaled scaled)

/-- Norms vanish together. -/
theorem Communicator.Multiplies.norm_beq_iff {comm copy : Communicator R} {c : R}
    (multiplies : comm.Multiplies copy c n) (x : Vector R n) :
    (comm.norm x == 0) = true ↔ (copy.norm x == 0) = true := by
  rw [beq_iff_eq, beq_iff_eq, multiplies.norm_eq, mul_eq_zero_iff_left multiplies.positive.ne']

variable [IsStrictOrderedRing R]

/-- A run multiplies its own inner products by one. -/
theorem Communicator.multiplies_self (comm : Communicator R) : comm.Multiplies comm 1 n where
  positive := zero_lt_one
  dot_eq := by
    intro x y
    rw [mul_one, one_mul]
  norm_eq := fun x => (one_mul (comm.norm x)).symm
  dot_scaled := by
    intro x x' y y' first second
    rw [scaled_inv_one_iff.mp first, scaled_inv_one_iff.mp second]

omit [IsStrictOrderedRing R] in
/-- The root of a positive number is positive. -/
theorem SquareRoots.sqrt_pos (roots : SquareRoots R) {s : R} (positive : 0 < s) :
    0 < Roots.sqrt s := by
  have nonzero : Roots.sqrt s ≠ 0 := fun zero =>
    positive.ne' ((roots.eq_zero_iff s positive.le).mp zero)
  exact lt_of_le_of_ne (roots.nonneg s positive.le) nonzero.symm

omit [IsStrictOrderedRing R] in
/-- The square of a quotient by the root of a positive number. -/
theorem SquareRoots.div_sqrt_mul_self (roots : SquareRoots R) {s : R} (positive : 0 < s) (x : R) :
    x / Roots.sqrt s * (x / Roots.sqrt s) * s = x * x := by
  rw [div_mul_div_comm, roots.mul_self s positive.le, div_mul_cancel₀ _ positive.ne']

/-- The root of a product with a square. -/
theorem SquareRoots.sqrt_mul_self_mul (roots : SquareRoots R) {c a : R} (positive : 0 ≤ c)
    (nonneg : 0 ≤ a) : Roots.sqrt (c * c * a) = c * Roots.sqrt a := by
  have product : 0 ≤ c * c * a := mul_nonneg (mul_self_nonneg c) nonneg
  have right : 0 ≤ c * Roots.sqrt a := mul_nonneg positive (roots.nonneg a nonneg)
  apply (mul_self_inj (roots.nonneg _ product) right).mp
  rw [roots.mul_self _ product, mul_mul_mul_comm, roots.mul_self a nonneg]

/-- The root of an inner product, whatever its sign, is a multiple. -/
theorem Communicator.Multiplies.sqrt_abs_dot_eq (roots : SquareRoots R)
    {comm copy : Communicator R} {c : R} (multiplies : comm.Multiplies copy c n)
    (x y : Vector R n) :
    Roots.sqrt |copy.dot x y| = c * Roots.sqrt |comm.dot x y| := by
  have positive := multiplies.positive
  rw [multiplies.dot_eq, abs_mul, abs_of_pos (mul_pos positive positive)]
  exact roots.sqrt_mul_self_mul positive.le (abs_nonneg _)

/-- A run that multiplies sums by a positive number multiplies the inner products
of a run with one process. -/
theorem Communicator.multiplies_serial (roots : SquareRoots R) {s : R} (positive : 0 < s)
    {copy : Communicator R} (sums : ∀ v, copy.sumAll v = s * v) :
    (serial : Communicator R).Multiplies copy (Roots.sqrt s) n := by
  have root : 0 < Roots.sqrt s := roots.sqrt_pos positive
  have dot_eq (x y : Vector R n) :
      copy.dot x y = Roots.sqrt s * Roots.sqrt s * Vec.dot x y := by
    rw [roots.mul_self s positive.le]
    exact sums (Vec.dot x y)
  refine ⟨root, dot_eq, fun x => ?_, fun {x x' y y'} first second => ?_⟩
  · have nonneg : 0 ≤ Vec.dot x x := by
      rw [dot_eq_sum]
      exact dotProduct_self_nonneg (entries x)
    show Roots.sqrt (copy.dot x x) = Roots.sqrt s * Roots.sqrt (Vec.dot x x)
    rw [dot_eq, roots.sqrt_mul_self_mul root.le nonneg]
  · have shorter : Vec.dot x' y' = (Roots.sqrt s)⁻¹ * (Roots.sqrt s)⁻¹ * Vec.dot x y := by
      rw [dot_eq_sum, dot_eq_sum, Finset.mul_sum]
      refine Finset.sum_congr rfl fun i _ => ?_
      rw [first.entry, second.entry]
      ring
    show copy.dot x' y' = Vec.dot x y
    rw [dot_eq, shorter]
    field_simp

end Reductions

namespace Operator

variable {σ τ R : Type} [Field R] {n : Nat}

/-- Two operators are in step on vectors that differ by a factor: from states that
agree both fail with the same error, or their images differ by that factor. -/
def InStepWith (states : σ → τ → Prop) (op : Operator σ R n) (copy : Operator τ R n) : Prop :=
  ∀ (k : R) (v w : Vector R n), Scaled k v w →
    (op.apply v).InStep states Eq (Scaled k) (copy.apply w)

/-- In runs with larger states operators stay in step. -/
theorem InStepWith.besides {states : σ → τ → Prop} {op : Operator σ R n} {copy : Operator τ R n}
    (matched : op.InStepWith states copy) {σ' τ' : Type} (others : σ' → τ' → Prop) :
    op.besides.InStepWith (fun state other => states state.1 other.1 ∧ others state.2 other.2)
      copy.besides :=
  fun k v w scaled => (matched k v w scaled).besides others

/-- An operator acts as a linear map wherever it succeeds. Whether it succeeds, and
the error if it does not, depend on the state of the run only, up to states that
agree. -/
def LinearUpTo (states : σ → σ → Prop) (op : Operator σ R n)
    (action : (Fin n → R) →ₗ[R] (Fin n → R)) : Prop :=
  ∀ v w, (op.apply v).InStep states Eq
    (fun image other => entries image = action (entries v) ∧ entries other = action (entries w))
    (op.apply w)

/-- A linear operator that never fails is linear whatever the state of the run. -/
theorem Realizes.linearUpTo {op : Operator σ R n} {action : (Fin n → R) →ₗ[R] (Fin n → R)}
    (linear : op.Realizes action) : op.LinearUpTo (fun _ _ => True) action := by
  intro v w
  exact Attempt.inStep_of_attains (linear v) (linear w) fun _ _ first second => ⟨first, second⟩

/-- A linear operator is in step with itself, whatever communicator it is given. -/
theorem LinearUpTo.inStepWith {states : σ → σ → Prop} {op : Operator σ R n}
    {action : (Fin n → R) →ₗ[R] (Fin n → R)} (linear : op.LinearUpTo states action)
    (comm : Communicator R) : op.InStepWith states { op with comm := comm } := by
  intro k v w scaled
  refine (linear v w).mono fun image other ⟨first, second⟩ => ?_
  rw [Scaled, first, second, scaled, map_smul]

end Operator

end HexSlab

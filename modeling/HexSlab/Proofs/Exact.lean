import HexSlab.Operator
import HexSlab.Proofs.Attempts
import Mathlib.Algebra.Algebra.Bilinear
import Mathlib.Algebra.BigOperators.Fin
import Mathlib.Algebra.Module.LinearMap.Defs
import Mathlib.Algebra.Module.Pi
import Mathlib.Algebra.Order.BigOperators.Group.Finset
import Mathlib.Algebra.Order.Field.Basic
import Mathlib.Algebra.Order.Ring.Rat
import Mathlib.Data.Rat.Sqrt
import Mathlib.Tactic.Ring

/-!
# Exact arithmetic

Every ordered field serves as a scalar type, whatever functions stand for its
roots. Vectors are then read as functions of the place, the inner product in
lanes is the ordinary sum of products, and an operator that never fails acts as
a linear map.
-/

namespace HexSlab

/-- Functions that stand for square roots and lengths. -/
class Roots (R : Type) where
  /-- Square root. -/
  sqrt : R → R
  /-- The length of the vector with two given components. -/
  hypot : R → R → R

/-- The operations of an ordered field. -/
instance Scalar.ofField {R : Type} [Field R] [LinearOrder R] [Roots R] : Scalar R where
  zero := 0
  one := 1
  add := (· + ·)
  sub := (· - ·)
  mul := (· * ·)
  div := (· / ·)
  neg := (- ·)
  le := (· ≤ ·)
  lt := (· < ·)
  beq := (· == ·)
  decideLe := inferInstance
  decideLt := inferInstance
  abs := fun a => |a|
  sqrt := Roots.sqrt
  hypot := Roots.hypot
  ofNat := fun n => (n : R)
  isFinite := fun _ => true

/-- The number two of an ordered field. -/
theorem Scalar.two_eq {R : Type} [Field R] [LinearOrder R] [Roots R] : (Scalar.two : R) = 2 :=
  Nat.cast_ofNat

/-- Rational numbers with roots that are exact on squares. -/
instance : Roots Rat where
  sqrt := Rat.sqrt
  hypot := fun a b => Rat.sqrt (a * a + b * b)

/-- The root of a rational number that is not negative is zero for zero only. -/
theorem Roots.sqrt_rat_eq_zero_iff (a : Rat) (nonneg : 0 ≤ a) : Roots.sqrt a = 0 ↔ a = 0 := by
  have num : 0 ≤ a.num := Rat.num_nonneg.mpr nonneg
  have den : Nat.sqrt a.den ≠ 0 := (Nat.sqrt_pos.mpr a.den_pos).ne'
  have unfolded : Roots.sqrt a = mkRat (Int.sqrt a.num) (Nat.sqrt a.den) := rfl
  rw [unfolded, Rat.mkRat_eq_zero den, Int.sqrt, Int.natCast_eq_zero, Nat.sqrt_eq_zero]
  rw [← Rat.num_eq_zero]
  omega

namespace Vec

/-- The entries of a vector by their places. -/
def entries {R : Type} {n : Nat} (x : Vector R n) : Fin n → R := fun i => x[i]

/-- Vectors are equal if their entries are. -/
theorem entries_inj {R : Type} {n : Nat} {x y : Vector R n} : entries x = entries y ↔ x = y := by
  constructor
  · intro same
    apply Vector.ext
    intro i inside
    exact congrFun same ⟨i, inside⟩
  · intro same
    rw [same]

/-- The entries of a vector that is made from a function of the place. -/
@[simp] theorem entries_ofFn {R : Type} {n : Nat} (v : Fin n → R) :
    entries (Vector.ofFn v) = v := by
  funext i
  simp only [entries, Fin.getElem_fin, Vector.getElem_ofFn, Fin.eta]

/-- The entries of a zero vector. -/
@[simp] theorem entries_zero {R : Type} [Zero R] {n : Nat} :
    entries (fill 0 : Vector R n) = 0 := by
  funext i
  simp only [entries, fill, Fin.getElem_fin, Vector.getElem_replicate, Pi.zero_apply]

/-- The entries of a sum. -/
@[simp] theorem entries_add {R : Type} [Add R] {n : Nat} (x y : Vector R n) :
    entries (x + y) = entries x + entries y := by
  funext i
  simp only [entries, Fin.getElem_fin, Vector.getElem_add, Pi.add_apply]

/-- The entries of a difference. -/
@[simp] theorem entries_sub {R : Type} [Sub R] {n : Nat} (x y : Vector R n) :
    entries (x - y) = entries x - entries y := by
  funext i
  simp only [entries, Fin.getElem_fin, Vector.getElem_sub, Pi.sub_apply]

/-- A sum of squares vanishes for zero only. -/
theorem sum_squares_eq_zero_iff {R : Type} [Field R] [LinearOrder R] [IsStrictOrderedRing R]
    {n : Nat} (v : Fin n → R) : ∑ i, v i * v i = 0 ↔ v = 0 := by
  rw [Finset.sum_eq_zero_iff_of_nonneg fun i _ => mul_self_nonneg (v i)]
  constructor
  · intro each
    funext i
    exact mul_self_eq_zero.mp (each i (Finset.mem_univ i))
  · rintro rfl i -
    exact mul_zero 0

/-- Multiplying entry by entry is linear. -/
def diagonal {R : Type} [Field R] {n : Nat} (d : Fin n → R) : (Fin n → R) →ₗ[R] (Fin n → R) :=
  LinearMap.mulLeft R d

/-- The length of a function of the place, by the given square root. -/
def euclidean {R : Type} [Field R] [Roots R] {n : Nat} (v : Fin n → R) : R :=
  Roots.sqrt (∑ i, v i * v i)

/-- The length of a vector is zero for the zero vector only, if roots are zero
for zero only. -/
theorem euclidean_eq_zero_iff {R : Type} [Field R] [LinearOrder R] [IsStrictOrderedRing R]
    [Roots R] {n : Nat} (root_zero : ∀ a : R, 0 ≤ a → (Roots.sqrt a = 0 ↔ a = 0))
    (v : Fin n → R) : euclidean v = 0 ↔ v = 0 := by
  have nonneg : 0 ≤ ∑ i, v i * v i := Finset.sum_nonneg fun i _ => mul_self_nonneg (v i)
  rw [euclidean, root_zero _ nonneg, sum_squares_eq_zero_iff]

variable {R : Type} [Field R] [LinearOrder R] [Roots R] {n : Nat}

/-- The entries of a combination, whether or not the second factor is zero. -/
@[simp] theorem entries_axpy (a : R) (x : Vector R n) (b : R) (y : Vector R n) :
    entries (axpy a x b y) = a • entries x + b • entries y := by
  funext i
  unfold axpy
  split
  · rename_i zero
    have none : b = 0 := eq_of_beq zero
    simp only [entries, Fin.getElem_fin, Vector.getElem_map, none, zero_smul, add_zero,
      Pi.smul_apply, smul_eq_mul]
  · simp only [entries, Fin.getElem_fin, Vector.getElem_zipWith, Pi.add_apply, Pi.smul_apply,
      smul_eq_mul]

/-- The entries of an entrywise product. -/
@[simp] theorem entries_hadamard (x y : Vector R n) :
    entries (hadamard x y) = entries x * entries y := by
  funext i
  simp only [entries, hadamard, Fin.getElem_fin, Vector.getElem_zipWith, Pi.mul_apply]

/-- The entries of a vector divided by a number. -/
@[simp] theorem entries_divBy (x : Vector R n) (divisor : R) :
    entries (divBy x divisor) = divisor⁻¹ • entries x := by
  funext i
  simp only [entries, divBy, Fin.getElem_fin, Vector.getElem_map, Pi.smul_apply, smul_eq_mul,
    div_eq_mul_inv, mul_comm]

/-- Adding in lanes loses nothing. -/
theorem laneSum_eq (lanes : Lanes R) (terms : List R) :
    laneSum lanes terms = lanes.total + terms.sum := by
  have fold (rest : List R) (start : R) : rest.foldl (· + ·) start = start + rest.sum := by
    induction rest generalizing start with
    | nil => simp only [List.foldl_nil, List.sum_nil, add_zero]
    | cons term rest ih => rw [List.foldl_cons, ih, List.sum_cons, add_assoc]
  fun_induction laneSum lanes terms with
  | case1 lanes a0 a1 a2 a3 a4 a5 a6 a7 rest ih =>
    rw [ih]
    simp only [Lanes.total, List.sum_cons]
    ring
  | case2 lanes rest short => exact fold rest lanes.total

/-- The inner product is the sum of the products of the entries. -/
theorem dot_eq_sum (x y : Vector R n) : dot x y = ∑ i, entries x i * entries y i := by
  have terms : (x.zipWith (· * ·) y).toList = List.ofFn fun i => entries x i * entries y i := by
    apply List.ext_getElem
    · simp only [Vector.length_toList, List.length_ofFn]
    · intro i _ _
      simp only [Vector.getElem_toList, Vector.getElem_zipWith, List.getElem_ofFn, entries,
        Fin.getElem_fin]
  have zero : (Lanes.zero : Lanes R).total = 0 := by
    simp only [Lanes.total, Lanes.zero, add_zero]
  rw [dot, laneSum_eq, zero, zero_add, terms, List.sum_ofFn]

/-- In a serial run the norm is the Euclidean length. -/
theorem norm_serial (x : Vector R n) :
    Communicator.serial.norm x = euclidean (entries x) := by
  have own : Communicator.serial.norm x = Roots.sqrt (dot x x) := rfl
  rw [own, dot_eq_sum, euclidean]

end Vec

/-- An operator never fails and acts as a linear map. -/
def Operator.Realizes {σ R : Type} [Field R] {n : Nat} (op : Operator σ R n)
    (action : (Fin n → R) →ₗ[R] (Fin n → R)) : Prop :=
  ∀ v, (op.apply v).Attains fun image => Vec.entries image = action (Vec.entries v)

/-- Wherever an operator does not fail, it acts as a linear map. -/
def Operator.ActsAs {σ R : Type} [Field R] {n : Nat} (op : Operator σ R n)
    (action : (Fin n → R) →ₗ[R] (Fin n → R)) : Prop :=
  ∀ v, (op.apply v).Yields fun image => Vec.entries image = action (Vec.entries v)

/-- An operator that never fails acts as its linear map. -/
theorem Operator.Realizes.actsAs {σ R : Type} [Field R] {n : Nat} {op : Operator σ R n}
    {action : (Fin n → R) →ₗ[R] (Fin n → R)} (linear : op.Realizes action) :
    op.ActsAs action :=
  fun v => (linear v).yields

/-- The operator of a linear map, on one process. -/
def Operator.ofAction {R : Type} [Field R] {n : Nat} (action : (Fin n → R) →ₗ[R] (Fin n → R))
    (σ : Type) : Operator σ R n where
  comm := .serial
  entryCount := n * n
  diagonal := Vector.ofFn fun i => action (Pi.single i 1) i
  row := fun i => (List.finRange n).map fun j => (j.val, action (Pi.single j 1) i)
  apply := fun v => pure (Vector.ofFn (action (Vec.entries v)))

/-- Every linear map has an operator that acts as it does. -/
theorem Operator.realizes_ofAction {R : Type} [Field R] {n : Nat}
    (action : (Fin n → R) →ₗ[R] (Fin n → R)) (σ : Type) :
    (Operator.ofAction action σ).Realizes action := by
  intro v
  exact Attempt.attains_pure (Vec.entries_ofFn _)

end HexSlab

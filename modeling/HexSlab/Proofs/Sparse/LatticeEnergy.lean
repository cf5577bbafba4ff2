import HexSlab.Proofs.Krylov.InnerProduct
import HexSlab.Proofs.Sparse.MinimumPrinciple
import HexSlab.Proofs.Sparse.SymmetricRows
import HexSlab.Proofs.Sparse.ValidRows
import Mathlib.Tactic.LinearCombination

/-!
# The energy of the lattice

The sum of the values at the neighbours of a place falls into three parts, one for
each lattice line through it. So does the energy of the Laplacian, and on a line it is
a sum of squares: of the differences along the line and of the values at its two ends,
because the values beyond are held at zero. The same holds of twelve times the sum of
squares less the energy, with sums in place of differences. Both are positive unless
all values are zero.
-/

namespace HexSlab

section Lines

variable {R : Type} [CommRing R]

/-- The sum of the values next to a place on a line of some length. -/
def besideOnLine (length : Nat) (value : Nat → R) (i : Nat) : R :=
  (if 0 < i then value (i - 1) else 0) + if i + 1 < length then value (i + 1) else 0

/-- Values on a line times the sums of others next to them: each pair of places next
to each other comes twice. -/
theorem sum_mul_besideOnLine (last : Nat) (a b : Nat → R) :
    ∑ i ∈ Finset.range (last + 1), a i * besideOnLine (last + 1) b i =
      ∑ i ∈ Finset.range last, (a (i + 1) * b i + a i * b (i + 1)) := by
  have lower : ∑ i ∈ Finset.range (last + 1), a i * (if 0 < i then b (i - 1) else 0) =
      ∑ i ∈ Finset.range last, a (i + 1) * b i := by
    rw [Finset.sum_range_succ', if_neg (Nat.lt_irrefl 0), mul_zero, add_zero]
    refine Finset.sum_congr rfl fun i _ => ?_
    rw [if_pos (Nat.succ_pos i), Nat.add_sub_cancel]
  have upper : ∑ i ∈ Finset.range (last + 1),
      a i * (if i + 1 < last + 1 then b (i + 1) else 0) =
        ∑ i ∈ Finset.range last, a i * b (i + 1) := by
    rw [Finset.sum_range_succ, if_neg (Nat.lt_irrefl _), mul_zero, add_zero]
    refine Finset.sum_congr rfl fun i member => ?_
    rw [if_pos (Nat.succ_lt_succ (Finset.mem_range.mp member))]
  simp only [besideOnLine, mul_add, Finset.sum_add_distrib, lower, upper]

/-- The values of one function on a line, each times twice that of another and those next
to it, which count with a sign. -/
def lineCoupling (sign : R) (length : Nat) (a b : Nat → R) : R :=
  ∑ i ∈ Finset.range length, a i * (2 * b i + sign * besideOnLine length b i)

/-- The coupling in its two parts. -/
theorem lineCoupling_eq (sign : R) (length : Nat) (a b : Nat → R) :
    lineCoupling sign length a b = 2 * ∑ i ∈ Finset.range length, a i * b i +
      sign * ∑ i ∈ Finset.range length, a i * besideOnLine length b i := by
  rw [lineCoupling, Finset.mul_sum, Finset.mul_sum, ← Finset.sum_add_distrib]
  refine Finset.sum_congr rfl fun i _ => ?_
  ring

/-- The two functions on a line may be exchanged. -/
theorem lineCoupling_comm (sign : R) (length : Nat) (a b : Nat → R) :
    lineCoupling sign length a b = lineCoupling sign length b a := by
  have beside : ∑ i ∈ Finset.range length, a i * besideOnLine length b i =
      ∑ i ∈ Finset.range length, b i * besideOnLine length a i := by
    cases length with
    | zero => rfl
    | succ last =>
      rw [sum_mul_besideOnLine, sum_mul_besideOnLine]
      refine Finset.sum_congr rfl fun i _ => ?_
      ring
  rw [lineCoupling_eq, lineCoupling_eq, beside]
  simp only [mul_comm (a _)]

/-- Coupled with itself, a function on a line gives the sum of the squares of its steps
and its ends. -/
theorem lineCoupling_self {sign : R} (unit : sign * sign = 1) (last : Nat) (value : Nat → R) :
    lineCoupling sign (last + 1) value value =
      value 0 ^ 2 + ∑ i ∈ Finset.range last, (value i + sign * value (i + 1)) ^ 2 +
        value last ^ 2 := by
  have square (i : Nat) : (value i + sign * value (i + 1)) ^ 2 =
      value i ^ 2 + value (i + 1) ^ 2 +
        sign * (value (i + 1) * value i + value i * value (i + 1)) := by
    linear_combination value (i + 1) ^ 2 * unit
  have steps : ∑ i ∈ Finset.range last, (value i + sign * value (i + 1)) ^ 2 =
      ∑ i ∈ Finset.range last, value i ^ 2 + ∑ i ∈ Finset.range last, value (i + 1) ^ 2 +
        sign * ∑ i ∈ Finset.range last, (value (i + 1) * value i + value i * value (i + 1)) := by
    rw [Finset.mul_sum, ← Finset.sum_add_distrib, ← Finset.sum_add_distrib]
    exact Finset.sum_congr rfl fun i _ => square i
  have front := Finset.sum_range_succ (fun i => value i * value i) last
  have back := Finset.sum_range_succ' (fun i => value i * value i) last
  simp only [← sq] at front back
  rw [lineCoupling_eq, sum_mul_besideOnLine, steps]
  simp only [← sq]
  linear_combination front + back

end Lines

section Positivity

variable {R : Type} [Field R] [LinearOrder R] [IsStrictOrderedRing R]

/-- Coupled with itself, a function on a line gives nothing negative. -/
theorem lineCoupling_self_nonneg {sign : R} (unit : sign * sign = 1) (length : Nat)
    (value : Nat → R) : 0 ≤ lineCoupling sign length value value := by
  cases length with
  | zero => exact le_rfl
  | succ last =>
    rw [lineCoupling_self unit]
    have steps : 0 ≤ ∑ i ∈ Finset.range last, (value i + sign * value (i + 1)) ^ 2 :=
      Finset.sum_nonneg fun i _ => sq_nonneg _
    exact add_nonneg (add_nonneg (sq_nonneg _) steps) (sq_nonneg _)

/-- It gives zero for the zero function only. -/
theorem eq_zero_of_lineCoupling_self {sign : R} (unit : sign * sign = 1) {length : Nat}
    {value : Nat → R} (none : lineCoupling sign length value value = 0) {i : Nat}
    (inside : i < length) : value i = 0 := by
  cases length with
  | zero => cases inside
  | succ last =>
    rw [lineCoupling_self unit] at none
    have steps : 0 ≤ ∑ i ∈ Finset.range last, (value i + sign * value (i + 1)) ^ 2 :=
      Finset.sum_nonneg fun i _ => sq_nonneg _
    have first : value 0 ^ 2 = 0 := by linarith [sq_nonneg (value 0), sq_nonneg (value last)]
    have flat : ∑ i ∈ Finset.range last, (value i + sign * value (i + 1)) ^ 2 = 0 := by
      linarith [sq_nonneg (value 0), sq_nonneg (value last)]
    rw [Finset.sum_eq_zero_iff_of_nonneg fun i _ => sq_nonneg _] at flat
    -- from the first end on, each step says that the next value is zero as well
    induction i with
    | zero => exact (pow_eq_zero_iff two_ne_zero).mp first
    | succ i ih =>
      have here := ih (Nat.lt_of_succ_lt inside)
      have step := flat i (Finset.mem_range.mpr (Nat.lt_of_succ_lt_succ inside))
      rw [here, zero_add, pow_eq_zero_iff two_ne_zero] at step
      linear_combination sign * step - value (i + 1) * unit

end Positivity

namespace Extents

section Sums

variable {M : Type} [AddCommMonoid M]

/-- A sum over the places of a lattice, line by line. -/
theorem sum_places (extents : Extents) (term : Nat → M) :
    ∑ p ∈ Finset.range (extents.x * extents.y * extents.z), term p =
      ∑ k ∈ Finset.range extents.z, ∑ j ∈ Finset.range extents.y,
        ∑ i ∈ Finset.range extents.x, term (extents.place i j k) := by
  have rows (outer inner : Nat) (term : Nat → M) :
      ∑ p ∈ Finset.range (outer * inner), term p =
        ∑ k ∈ Finset.range outer, ∑ i ∈ Finset.range inner, term (k * inner + i) := by
    induction outer with
    | zero => rw [Nat.zero_mul, Finset.sum_range_zero, Finset.sum_range_zero]
    | succ outer ih => rw [Nat.succ_mul, Finset.sum_range_add, ih, Finset.sum_range_succ]
  have whole : extents.x * extents.y * extents.z = extents.z * extents.y * extents.x := by ring
  rw [whole, rows, rows]
  rfl

end Sums

/-- An inner product of vectors with an entry for each place, line by line. -/
theorem dotProduct_eq_places {R : Type} [Field R] (extents : Extents) {n : Nat}
    (size : n = extents.x * extents.y * extents.z) (u w : Fin n → R) :
    u ⬝ᵥ w = ∑ k ∈ Finset.range extents.z, ∑ j ∈ Finset.range extents.y,
      ∑ i ∈ Finset.range extents.x,
        Vec.valueAt (extents.place i j k) u * Vec.valueAt (extents.place i j k) w := by
  rw [← extents.sum_places fun p => Vec.valueAt p u * Vec.valueAt p w, ← size,
    ← Fin.sum_univ_eq_sum_range]
  refine Finset.sum_congr rfl fun p _ => ?_
  rw [Vec.valueAt_of_lt p.isLt, Vec.valueAt_of_lt p.isLt]

variable {R : Type} [CommRing R]

/-- The sum over the neighbours of a place, line by line. -/
theorem sum_neighbours (extents : Extents) (value : Nat → R) (i j k : Nat) :
    ((extents.neighbours i j k).map value).sum =
      besideOnLine extents.x (fun i => value (extents.place i j k)) i +
        besideOnLine extents.y (fun j => value (extents.place i j k)) j +
          besideOnLine extents.z (fun k => value (extents.place i j k)) k := by
  have one (here : Prop) [Decidable here] (q : Nat) :
      ((if here then [q] else []).map value).sum = if here then value q else 0 := by
    split
    · exact List.sum_singleton
    · rfl
  simp only [neighbours, List.map_append, List.sum_append, one, besideOnLine]
  ring

/-- The values of one function on the lattice, each times six times that of another and
those at its neighbours, which count with a sign. -/
def coupling (extents : Extents) (sign : R) (u w : Nat → R) : R :=
  ∑ k ∈ Finset.range extents.z, ∑ j ∈ Finset.range extents.y, ∑ i ∈ Finset.range extents.x,
    u (extents.place i j k) * (6 * w (extents.place i j k) +
      sign * ((extents.neighbours i j k).map w).sum)

/-- The coupling of two functions, line by line in each direction. -/
theorem coupling_eq_lines (extents : Extents) (sign : R) (u w : Nat → R) :
    extents.coupling sign u w =
      (∑ k ∈ Finset.range extents.z, ∑ j ∈ Finset.range extents.y,
        lineCoupling sign extents.x (fun i => u (extents.place i j k))
          fun i => w (extents.place i j k)) +
      (∑ k ∈ Finset.range extents.z, ∑ i ∈ Finset.range extents.x,
        lineCoupling sign extents.y (fun j => u (extents.place i j k))
          fun j => w (extents.place i j k)) +
      ∑ j ∈ Finset.range extents.y, ∑ i ∈ Finset.range extents.x,
        lineCoupling sign extents.z (fun k => u (extents.place i j k))
          fun k => w (extents.place i j k) := by
  have split (i j k : Nat) : u (extents.place i j k) * (6 * w (extents.place i j k) +
      sign * ((extents.neighbours i j k).map w).sum) =
        u (extents.place i j k) * (2 * w (extents.place i j k) +
          sign * besideOnLine extents.x (fun i => w (extents.place i j k)) i) +
        u (extents.place i j k) * (2 * w (extents.place i j k) +
          sign * besideOnLine extents.y (fun j => w (extents.place i j k)) j) +
        u (extents.place i j k) * (2 * w (extents.place i j k) +
          sign * besideOnLine extents.z (fun k => w (extents.place i j k)) k) := by
    rw [sum_neighbours]
    ring
  have along (f : Nat → Nat → Nat → R) : ∑ k ∈ Finset.range extents.z,
      ∑ j ∈ Finset.range extents.y, ∑ i ∈ Finset.range extents.x, f i j k =
        ∑ k ∈ Finset.range extents.z, ∑ i ∈ Finset.range extents.x,
          ∑ j ∈ Finset.range extents.y, f i j k :=
    Finset.sum_congr rfl fun k _ => Finset.sum_comm
  have upward (f : Nat → Nat → Nat → R) : ∑ k ∈ Finset.range extents.z,
      ∑ j ∈ Finset.range extents.y, ∑ i ∈ Finset.range extents.x, f i j k =
        ∑ j ∈ Finset.range extents.y, ∑ i ∈ Finset.range extents.x,
          ∑ k ∈ Finset.range extents.z, f i j k :=
    Finset.sum_comm.trans (Finset.sum_congr rfl fun j _ => Finset.sum_comm)
  simp only [coupling, split, Finset.sum_add_distrib]
  rw [along fun i j k => u (extents.place i j k) * (2 * w (extents.place i j k) +
      sign * besideOnLine extents.y (fun j => w (extents.place i j k)) j),
    upward fun i j k => u (extents.place i j k) * (2 * w (extents.place i j k) +
      sign * besideOnLine extents.z (fun k => w (extents.place i j k)) k)]
  rfl

/-- The two functions on a lattice may be exchanged. -/
theorem coupling_comm (extents : Extents) (sign : R) (u w : Nat → R) :
    extents.coupling sign u w = extents.coupling sign w u := by
  simp only [coupling_eq_lines, lineCoupling_comm sign _ (fun _ => u _)]

end Extents

/-- Coupled with itself, a function on a lattice that is not zero at all places gives
something positive. -/
theorem Extents.coupling_self_pos {R : Type} [Field R] [LinearOrder R] [IsStrictOrderedRing R]
    (extents : Extents) {sign : R} (unit : sign * sign = 1) {value : Nat → R} {place : Nat}
    (inside : place < extents.x * extents.y * extents.z) (nonzero : value place ≠ 0) :
    0 < extents.coupling sign value value := by
  have line (length : Nat) (a : Nat → R) : 0 ≤ lineCoupling sign length a a :=
    lineCoupling_self_nonneg unit length a
  obtain ⟨i, insideX, j, insideY, k, insideZ, rfl⟩ := extents.exists_place inside
  rw [coupling_eq_lines]
  -- the line along X through the place is enough: no other line gives anything negative
  have own : 0 < lineCoupling sign extents.x (fun i => value (extents.place i j k))
      fun i => value (extents.place i j k) :=
    (line _ _).lt_of_ne fun none =>
      nonzero (eq_zero_of_lineCoupling_self unit none.symm insideX)
  have row (k : Nat) : 0 ≤ ∑ j ∈ Finset.range extents.y,
      lineCoupling sign extents.x (fun i => value (extents.place i j k))
        fun i => value (extents.place i j k) := Finset.sum_nonneg fun j _ => line _ _
  have layer : 0 < ∑ j ∈ Finset.range extents.y,
      lineCoupling sign extents.x (fun i => value (extents.place i j k))
        fun i => value (extents.place i j k) :=
    Finset.sum_pos' (fun j _ => line _ _) ⟨j, Finset.mem_range.mpr insideY, own⟩
  have first : 0 < ∑ k ∈ Finset.range extents.z, ∑ j ∈ Finset.range extents.y,
      lineCoupling sign extents.x (fun i => value (extents.place i j k))
        fun i => value (extents.place i j k) :=
    Finset.sum_pos' (fun k _ => row k) ⟨k, Finset.mem_range.mpr insideZ, layer⟩
  refine add_pos_of_pos_of_nonneg (add_pos_of_pos_of_nonneg first ?_) ?_
  · exact Finset.sum_nonneg fun k _ => Finset.sum_nonneg fun i _ => line _ _
  · exact Finset.sum_nonneg fun j _ => Finset.sum_nonneg fun i _ => line _ _

end HexSlab

import HexSlab.Proofs.ScaledVectors
import HexSlab.Proofs.Smoother.ChebyshevPolynomial
import Mathlib.LinearAlgebra.Matrix.ToLin
import Mathlib.LinearAlgebra.SesquilinearForm.Basic

/-!
# Estimates by the power method do not decrease

The estimate after a number of power iterations is a Rayleigh quotient: that of the
start vector with the scaled operator applied as often as there were iterations before
the last. Where the scaled operator is symmetric and not negative, the quotient of an
image is at least that of the vector. This takes the Cauchy–Schwarz inequality twice,
for the inner product and for the energy. So more iterations give an estimate that is
no smaller, and none exceeds a bound of the quotients.
-/

namespace HexSlab

open Vec
open HexSlab.Chebyshev (scaledAction)

section Quotients

variable {R : Type} [Field R] {n : Nat}

/-- The energy of a vector over the square of its length. -/
def rayleigh (map : Module.End R (Fin n → R)) (v : Fin n → R) : R :=
  (v ⬝ᵥ map v) / (v ⬝ᵥ v)

/-- Multiples of a vector have the same quotient. -/
theorem rayleigh_smul (map : Module.End R (Fin n → R)) {c : R} (nonzero : c ≠ 0)
    (v : Fin n → R) : rayleigh map (c • v) = rayleigh map v := by
  rw [rayleigh, map_smul, smul_dotProduct, dotProduct_smul, smul_dotProduct, dotProduct_smul,
    smul_smul, smul_smul, smul_eq_mul, smul_eq_mul,
    mul_div_mul_left _ _ (mul_ne_zero nonzero nonzero), rayleigh]

variable [LinearOrder R]

/-- A map is its own transpose, and its quotients lie between zero and a bound. -/
structure SymmetricWithin (map : Module.End R (Fin n → R)) (most : R) : Prop where
  /-- The map is its own transpose. -/
  symmetric : ∀ u v, map u ⬝ᵥ v = u ⬝ᵥ map v
  /-- No vector has negative energy. -/
  nonneg : ∀ v, 0 ≤ v ⬝ᵥ map v
  /-- The energy is at most a multiple of the square of the length. -/
  le : ∀ v, v ⬝ᵥ map v ≤ most * (v ⬝ᵥ v)

variable [IsStrictOrderedRing R] {map : Module.End R (Fin n → R)} {most : R}

/-- Quotients lie between zero and the bound. -/
theorem SymmetricWithin.rayleigh_mem (within : SymmetricWithin map most) {v : Fin n → R}
    (nonzero : v ≠ 0) : rayleigh map v ∈ Set.Icc 0 most := by
  have positive : 0 < v ⬝ᵥ v := dotProduct_self_pos nonzero
  exact ⟨div_nonneg (within.nonneg v) positive.le, (div_le_iff₀ positive).mpr (within.le v)⟩

/-- The identity is symmetric, with all quotients one. -/
theorem symmetricWithin_one : SymmetricWithin (1 : Module.End R (Fin n → R)) 1 where
  symmetric := fun _ _ => rfl
  nonneg := dotProduct_self_nonneg
  le := fun v => (one_mul (v ⬝ᵥ v)).ge

/-- The energy satisfies the Cauchy–Schwarz inequality. -/
theorem SymmetricWithin.sq_le (within : SymmetricWithin map most) (u v : Fin n → R) :
    (u ⬝ᵥ map v) ^ 2 ≤ (u ⬝ᵥ map u) * (v ⬝ᵥ map v) := by
  let energy : LinearMap.BilinForm R (Fin n → R) := (dotProductBilin R R).compl₂ map
  have symmetric : LinearMap.IsSymm energy := by
    refine ⟨fun u v => ?_⟩
    show u ⬝ᵥ map v = v ⬝ᵥ map u
    rw [← within.symmetric, dotProduct_comm]
  exact energy.apply_sq_le_of_symm within.nonneg symmetric u v

/-- The quotient of an image is at least that of the vector: with the moments m₀ to m₃
of the vector, m₁² ≤ m₀ m₂ by the inner product and m₂² ≤ m₁ m₃ by the energy. -/
theorem SymmetricWithin.rayleigh_le_map (within : SymmetricWithin map most) {v : Fin n → R}
    (remains : map v ≠ 0) : rayleigh map v ≤ rayleigh map (map v) := by
  have m₀ : 0 < v ⬝ᵥ v := dotProduct_self_pos (ne_zero_of_map remains)
  have m₂ : 0 < map v ⬝ᵥ map v := dotProduct_self_pos remains
  have inner : (v ⬝ᵥ map v) ^ 2 ≤ (v ⬝ᵥ v) * (map v ⬝ᵥ map v) :=
    symmetricWithin_one.sq_le v (map v)
  have energy : (map v ⬝ᵥ map v) ^ 2 ≤ (v ⬝ᵥ map v) * (map v ⬝ᵥ map (map v)) := by
    have moments := within.sq_le v (map v)
    rw [← within.symmetric v (map v)] at moments
    exact moments
  have m₁ : 0 < v ⬝ᵥ map v := by
    refine lt_of_le_of_ne (within.nonneg v) fun zero => ?_
    rw [← zero, zero_mul] at energy
    exact (pow_pos m₂ 2).not_ge energy
  rw [rayleigh, rayleigh, div_le_div_iff₀ m₀ m₂]
  refine le_of_mul_le_mul_left ?_ m₁
  calc (v ⬝ᵥ map v) * ((v ⬝ᵥ map v) * (map v ⬝ᵥ map v))
      = (v ⬝ᵥ map v) ^ 2 * (map v ⬝ᵥ map v) := by ring
    _ ≤ (v ⬝ᵥ v) * (map v ⬝ᵥ map v) * (map v ⬝ᵥ map v) :=
        mul_le_mul_of_nonneg_right inner m₂.le
    _ = (v ⬝ᵥ v) * (map v ⬝ᵥ map v) ^ 2 := by ring
    _ ≤ (v ⬝ᵥ v) * ((v ⬝ᵥ map v) * (map v ⬝ᵥ map (map v))) :=
        mul_le_mul_of_nonneg_left energy m₀.le
    _ = (v ⬝ᵥ map v) * (map v ⬝ᵥ map (map v) * (v ⬝ᵥ v)) := by ring

/-- Quotients do not decrease along the images of a vector, as far as these are not
zero. -/
theorem SymmetricWithin.rayleigh_pow_le (within : SymmetricWithin map most) {v : Fin n → R}
    {fewer more : Nat} (le : fewer ≤ more) (remains : (map ^ more) v ≠ 0) :
    rayleigh map ((map ^ fewer) v) ≤ rayleigh map ((map ^ more) v) := by
  induction more, le using Nat.le_induction with
  | base => exact le_rfl
  | succ more _ ih =>
    rw [pow_succ', Module.End.mul_apply] at remains ⊢
    exact (ih (ne_zero_of_map remains)).trans (within.rayleigh_le_map remains)

end Quotients

section Iterations

variable {σ R : Type} [Field R] [LinearOrder R] [Roots R] [IsStrictOrderedRing R] {n : Nat}
  {op : Operator σ R n} {action : Module.End R (Fin n → R)} {inverse : Vector R n} {c : R}

omit [IsStrictOrderedRing R] in
/-- The image that an iteration computes. -/
theorem entries_hadamard_image {x image : Vector R n}
    (known : entries image = action (entries x)) :
    entries (hadamard image inverse) = scaledAction inverse action (entries x) := by
  rw [entries_hadamard, known, mul_comm]
  rfl

/-- The estimate of an iteration is the quotient of its vector. -/
theorem estimate_eq_rayleigh (reductions : Communicator.serial.Multiplies op.comm c n)
    {x image : Vector R n} (known : entries image = action (entries x)) :
    op.comm.dot (hadamard image inverse) x / op.comm.dot x x =
      rayleigh (scaledAction inverse action) (entries x) := by
  have square : c * c ≠ 0 := (mul_pos reductions.positive reductions.positive).ne'
  rw [reductions.dot_eq, reductions.dot_eq, mul_div_mul_left _ _ square, dot_serial, dot_serial,
    entries_hadamard_image known, dotProduct_comm, rayleigh]

/-- The norm of a vector is zero for zero only. -/
theorem norm_eq_zero_iff (roots : SquareRoots R)
    (reductions : Communicator.serial.Multiplies op.comm c n) (x : Vector R n) :
    op.comm.norm x = 0 ↔ entries x = 0 := by
  rw [reductions.norm_eq, mul_eq_zero_iff_left reductions.positive.ne', norm_serial,
    euclidean_eq_zero roots]

/-- The estimate after some iterations from a vector is the quotient of its image under
those before the last, and one more image is not zero. -/
theorem powerIterations_yields (roots : SquareRoots R)
    (reductions : Communicator.serial.Multiplies op.comm c n) (acts : op.ActsAs action)
    (steps : Nat) (x : Vector R n) (estimate : R) :
    (powerIterations op inverse (steps + 1) x estimate).Yields fun value =>
      value = rayleigh (scaledAction inverse action)
        ((scaledAction inverse action ^ steps) (entries x)) ∧
      (scaledAction inverse action ^ (steps + 1)) (entries x) ≠ 0 := by
  induction steps generalizing x estimate with
  | zero =>
    unfold powerIterations
    refine ((acts x).mapError _).bind fun image known => ?_
    dsimp only
    split_ifs with vanished
    · exact Attempt.yields_fail _
    · rw [beq_iff_eq, norm_eq_zero_iff roots reductions, entries_hadamard_image known] at vanished
      exact Attempt.yields_pure ⟨estimate_eq_rayleigh reductions known, vanished⟩
  | succ steps ih =>
    unfold powerIterations
    refine ((acts x).mapError _).bind fun image known => ?_
    dsimp only
    split_ifs with vanished
    · exact Attempt.yields_fail _
    · rw [beq_iff_eq] at vanished
      have factor := inv_ne_zero vanished
      refine (ih _ _).mono ?_
      rintro value ⟨rfl, remains⟩
      -- the next iterate is a multiple of the image, so it has the same quotients
      rw [entries_divBy, entries_hadamard_image known, map_smul, ← Module.End.mul_apply,
        ← pow_succ] at *
      exact ⟨rayleigh_smul _ factor _, fun zero => remains (by rw [zero, smul_zero])⟩

/-- The estimate of the power method is a quotient of an image of the start vector. -/
theorem powerMethod_yields (roots : SquareRoots R)
    (reductions : Communicator.serial.Multiplies op.comm c n) (acts : op.ActsAs action)
    (start : Vector R n) (steps : Nat) :
    (powerMethod op inverse start (steps + 1)).Yields fun value =>
      value = rayleigh (scaledAction inverse action)
        ((scaledAction inverse action ^ steps) (entries start)) ∧
      (scaledAction inverse action ^ (steps + 1)) (entries start) ≠ 0 := by
  unfold powerMethod
  dsimp only
  split_ifs with vanished
  · exact Attempt.yields_fail _
  · rw [beq_iff_eq] at vanished
    have factor := inv_ne_zero vanished
    refine (powerIterations_yields roots reductions acts steps _ 0).mono ?_
    rintro value ⟨rfl, remains⟩
    rw [entries_divBy, map_smul] at *
    exact ⟨rayleigh_smul _ factor _, fun zero => remains (by rw [zero, smul_zero])⟩

/-- The power method gives an estimate unless an image of the start vector is zero, with
an operator that never fails. -/
theorem powerMethod_attains (roots : SquareRoots R)
    (reductions : Communicator.serial.Multiplies op.comm c n) (linear : op.Realizes action)
    (start : Vector R n) (iterations : Nat)
    (remains : (scaledAction inverse action ^ iterations) (entries start) ≠ 0) :
    (powerMethod op inverse start iterations).Attains fun _ => True := by
  have iterates (steps : Nat) (x : Vector R n) (estimate : R)
      (remains : (scaledAction inverse action ^ steps) (entries x) ≠ 0) :
      (powerIterations op inverse steps x estimate).Attains fun _ => True := by
    induction steps generalizing x estimate with
    | zero => exact Attempt.attains_pure trivial
    | succ steps ih =>
      unfold powerIterations
      refine ((linear x).mapError _).bind fun image known => ?_
      dsimp only
      rw [pow_succ, Module.End.mul_apply, ← entries_hadamard_image known] at remains
      have length : op.comm.norm (hadamard image inverse) ≠ 0 := fun zero =>
        ne_zero_of_map remains ((norm_eq_zero_iff roots reductions _).mp zero)
      rw [if_neg (by rwa [beq_iff_eq])]
      refine ih _ _ ?_
      rw [entries_divBy, map_smul]
      exact smul_ne_zero (inv_ne_zero length) remains
  have length : op.comm.norm start ≠ 0 := fun zero =>
    ne_zero_of_map remains ((norm_eq_zero_iff roots reductions _).mp zero)
  unfold powerMethod
  dsimp only
  rw [if_neg (by rwa [beq_iff_eq])]
  refine iterates iterations _ 0 ?_
  rw [entries_divBy, map_smul]
  exact smul_ne_zero (inv_ne_zero length) remains

/-- With more iterations the estimate of the power method is at least as large, where
the scaled operator is symmetric and not negative, and no estimate leaves the interval
of its quotients. The processes may hold copies of the data. -/
theorem powerMethod_estimates_le (roots : SquareRoots R) {s : R} (several : 0 < s)
    (sums : ∀ v, op.comm.sumAll v = s * v) (acts : op.ActsAs action) {most : R}
    (within : SymmetricWithin (scaledAction inverse action) most)
    (start : Vector R n) {fewer more : Nat} (some : 1 ≤ fewer) (le : fewer ≤ more)
    {state state' after after' : σ} {first last : R}
    (short : (powerMethod op inverse start fewer).run state = (.ok first, after))
    (long : (powerMethod op inverse start more).run state' = (.ok last, after')) :
    first ≤ last ∧ first ∈ Set.Icc 0 most ∧ last ∈ Set.Icc 0 most := by
  have reductions := Communicator.multiplies_serial (n := n) roots several sums
  obtain ⟨fewer, rfl⟩ := Nat.exists_eq_add_of_le' some
  obtain ⟨more, rfl⟩ := Nat.exists_eq_add_of_le' (some.trans le)
  obtain ⟨first_eq, kept⟩ := powerMethod_yields roots reductions acts start fewer _ _ _ short
  obtain ⟨last_eq, remains⟩ := powerMethod_yields roots reductions acts start more _ _ _ long
  have before {steps : Nat}
      (image : (scaledAction inverse action ^ (steps + 1)) (entries start) ≠ 0) :
      (scaledAction inverse action ^ steps) (entries start) ≠ 0 := by
    rw [pow_succ', Module.End.mul_apply] at image
    exact ne_zero_of_map image
  rw [first_eq, last_eq]
  exact ⟨within.rayleigh_pow_le (Nat.le_of_succ_le_succ le) (before remains),
    within.rayleigh_mem (before kept), within.rayleigh_mem (before remains)⟩

/-- A diagonal map on real numbers: one iteration and two. -/
theorem powerMethod_estimates_le_diagonal :
    let op := Operator.ofAction (diagonal ![(1 : ℝ), 2]) Unit
    ∃ first last after after',
      (powerMethod op #v[1, 1] #v[1, 1] 1).run () = (.ok first, after) ∧
      (powerMethod op #v[1, 1] #v[1, 1] 2).run () = (.ok last, after') ∧
      first ≤ last ∧ first ∈ Set.Icc 0 2 ∧ last ∈ Set.Icc 0 2 := by
  intro op
  have linear : op.Realizes (diagonal ![(1 : ℝ), 2]) := Operator.realizes_ofAction _ Unit
  have sums (v : ℝ) : op.comm.sumAll v = 1 * v := (one_mul v).symm
  have reductions := Communicator.multiplies_serial (n := 2) squareRoots_real one_pos sums
  set map := scaledAction #v[(1 : ℝ), 1] (diagonal ![(1 : ℝ), 2]) with map_eq
  have scaled (v : Fin 2 → ℝ) : map v = ![v 0, 2 * v 1] := by
    funext i
    fin_cases i
    · exact (one_mul _).trans (one_mul _)
    · exact one_mul _
  have within : SymmetricWithin map 2 := by
    constructor <;> simp only [scaled, dotProduct, Fin.sum_univ_two, Matrix.cons_val_zero,
      Matrix.cons_val_one]
    · intro u v
      ring
    · intro v
      linarith [mul_self_nonneg (v 0), mul_self_nonneg (v 1)]
    · intro v
      linarith [mul_self_nonneg (v 0), mul_self_nonneg (v 1)]
  have kept (steps : Nat) : (map ^ steps) (entries #v[(1 : ℝ), 1]) 0 = 1 := by
    induction steps with
    | zero => rfl
    | succ steps ih =>
      rw [pow_succ', Module.End.mul_apply, scaled]
      exact ih
  have remains (steps : Nat) : (map ^ steps) (entries #v[(1 : ℝ), 1]) ≠ 0 := by
    intro zero
    have first := kept steps
    rw [zero] at first
    exact zero_ne_one first
  obtain ⟨first, after, short, -⟩ :=
    powerMethod_attains squareRoots_real reductions linear #v[1, 1] 1 (remains 1) ()
  obtain ⟨last, after', long, -⟩ :=
    powerMethod_attains squareRoots_real reductions linear #v[1, 1] 2 (remains 2) ()
  exact ⟨first, last, after, after', short, long, powerMethod_estimates_le squareRoots_real
    one_pos sums linear.actsAs within #v[1, 1] le_rfl one_le_two short long⟩

end Iterations

end HexSlab

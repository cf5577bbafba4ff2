import HexSlab.Proofs.Smoother.RowVisits

/-!
# Gauss-Seidel sweeps descend the energy

The solutions of a system with a symmetric matrix are the stationary points of its energy,
the quadratic form of the matrix less a linear one. A visit of a row minimises the energy
along the unit vector of that row, or goes a part of the way or less than twice as far
where it is damped or the diagonal is bounded. So no visit raises the energy, and one
that leaves a residual to correct lowers it: whatever later visits do cannot make up for
that.
-/

namespace HexSlab

open Vec
open scoped Matrix

variable {R : Type} [Field R] [LinearOrder R] [Roots R] {n : Nat}

/-- The energy of a vector for a right-hand side, as it is computed. -/
def Csr.energy (matrix : Csr R) (x y : Vector R matrix.rowCount) : R :=
  dot y (matrix.product y.toArray) / Scalar.two - dot x y

namespace Relaxation

/-- The energy of an iterate under a linear map. -/
def energy (action : Module.End R (Fin n → R)) (x y : Fin n → R) : R :=
  y ⬝ᵥ action y / Scalar.two - x ⬝ᵥ y

/-- The computed energy is that of the map of the matrix. -/
theorem energy_eq (matrix : Csr R) (x y : Vector R matrix.rowCount) :
    matrix.energy x y = energy matrix.action (Vec.entries x) (Vec.entries y) := by
  rw [Csr.energy, matrix.dot_product_eq, dot_eq_sum]
  rfl

variable [IsStrictOrderedRing R]

section Descent

variable {action : Module.End R (Fin n → R)} {inverse : Vector R n} {damping : R}

/-- The energy along a line is the energy at its start, less the work of the residual,
and half the form of the move. -/
theorem energy_add (symmetric : ∀ u v, action u ⬝ᵥ v = u ⬝ᵥ action v) (x y move : Fin n → R) :
    energy action x (y + move) =
      energy action x y - (x - action y) ⬝ᵥ move + move ⬝ᵥ action move / 2 := by
  have crossed : move ⬝ᵥ action y = y ⬝ᵥ action move := by
    rw [dotProduct_comm, symmetric]
  unfold energy
  rw [map_add, add_dotProduct, dotProduct_add, dotProduct_add, dotProduct_add, sub_dotProduct,
    crossed, symmetric, Scalar.two_eq]
  ring

/-- A visit takes from the energy a multiple of the square of the residual. -/
theorem energy_visit (symmetric : ∀ u v, action u ⬝ᵥ v = u ⬝ᵥ action v) (x y : Fin n → R)
    (weight : R) (i : Fin n) :
    energy action x (y + (weight * (x i - action y i)) • Pi.single i 1) =
      energy action x y - (x i - action y i) * (x i - action y i) *
        (weight * (1 - weight * action (Pi.single i 1) i / 2)) := by
  rw [energy_add symmetric, map_smul, dotProduct_smul, dotProduct_smul, smul_dotProduct,
    dotProduct_single_one, single_one_dotProduct]
  simp only [smul_eq_mul, Pi.sub_apply]
  ring

/-- A visit whose weight is positive and less than twice the inverse of the diagonal does
not raise the energy, and keeps it only if the row has no residual. -/
theorem energy_visit_le (symmetric : ∀ u v, action u ⬝ᵥ v = u ⬝ᵥ action v) (x y : Fin n → R)
    {weight : R} {i : Fin n} (positive : 0 < weight)
    (bounded : weight * action (Pi.single i 1) i < 2) :
    let next := y + (weight * (x i - action y i)) • Pi.single i 1
    energy action x next ≤ energy action x y ∧
      (energy action x next = energy action x y → action y i = x i) := by
  have gain : 0 < weight * (1 - weight * action (Pi.single i 1) i / 2) :=
    mul_pos positive (by linarith)
  have taken := mul_nonneg (mul_self_nonneg (x i - action y i)) gain.le
  dsimp only
  rw [energy_visit symmetric]
  refine ⟨sub_le_self _ taken, fun kept => ?_⟩
  have nothing := (mul_eq_zero.mp (sub_eq_self.mp kept)).resolve_right gain.ne'
  exact (sub_eq_zero.mp (mul_self_eq_zero.mp nothing)).symm

/-- Visits with such weights do not raise the energy, and keep it only if there is no
residual in any row they visit. -/
theorem energy_correct_le (symmetric : ∀ u v, action u ⬝ᵥ v = u ⬝ᵥ action v)
    (positive : ∀ i, 0 < weight inverse damping i)
    (bounded : ∀ i, weight inverse damping i * action (Pi.single i 1) i < 2)
    (visits : List (Fin n)) (x y : Fin n → R) :
    let visited := correct action x y (visits.map (pointCorrection inverse damping))
    energy action x visited ≤ energy action x y ∧
      (energy action x visited = energy action x y → ∀ i ∈ visits, action y i = x i) := by
  induction visits generalizing y with
  | nil => exact ⟨le_rfl, fun _ i member => absurd member List.not_mem_nil⟩
  | cons i rest ih =>
    obtain ⟨descends, strict⟩ := energy_visit_le symmetric x y (positive i) (bounded i)
    have later := ih (y + (weight inverse damping i * (x i - action y i)) • Pi.single i 1)
    dsimp only
    rw [correct_visit]
    refine ⟨later.1.trans descends, fun kept => ?_⟩
    have solved : action y i = x i := strict (descends.antisymm (kept ▸ later.1))
    -- the visit did not move the iterate, so the later ones start where it started
    have still : y + (weight inverse damping i * (x i - action y i)) • Pi.single i 1 = y := by
      rw [solved, sub_self, mul_zero, zero_smul, add_zero]
    rw [still] at later kept
    exact List.forall_mem_cons.mpr ⟨solved, later.2 kept⟩

end Descent

/-- A positive entry is inverted to a positive number, itself or bounded from below. -/
theorem invertEntry_pos (least : R) {entry : R} (positive : 0 < entry) :
    0 < invertEntry least entry ∧ invertEntry least entry * entry ≤ 1 := by
  unfold invertEntry
  split
  case isTrue below =>
    have larger : entry < least := lt_of_le_of_lt (le_abs_self entry) below
    have above : 0 < least := positive.trans larger
    refine ⟨one_div_pos.mpr above, ?_⟩
    rw [one_div_mul_eq_div]
    exact (div_le_one above).mpr larger.le
  case isFalse => exact ⟨one_div_pos.mpr positive, (one_div_mul_cancel positive.ne').le⟩

/-- Gauss-Seidel sweeps never raise the energy. In exact arithmetic over an ordered field,
for every symmetric matrix stored by rows whose diagonal entries are positive, every bound
of the diagonal, every damping between zero and two, and any positive number of sweeps of
either Gauss-Seidel kind from the given vector: computed and applied, a relaxation succeeds
with a vector whose energy is not larger than that of the given vector, and equal only if
the given vector is a solution. -/
theorem gaussSeidel_never_raises_energy (matrix : Csr R) (comm : Communicator R)
    (limit : Option Nat) (relaxation : Relaxation R matrix.rowCount) (given : matrix.Symmetric)
    (diagonal : ∀ i, 0 < matrix.dense i i) (positive : 0 < relaxation.params.damping)
    (bounded : relaxation.params.damping < 2) (kind : relaxation.params.sweep ≠ .jacobi)
    (sweeps : 1 ≤ relaxation.params.sweeps) (start : relaxation.params.zeroStart = false)
    (x y : Vector R matrix.rowCount) :
    relaxation.ComputesTo (matrix.operator comm limit) x y fun swept =>
      matrix.energy x swept ≤ matrix.energy x y ∧
        (matrix.energy x swept = matrix.energy x y → matrix.product y.toArray = x) := by
  refine computesTo_of_correct given.valid given.square comm limit relaxation kind sweeps x y ?_
  intro swept same
  generalize weights : invertDiagonal (matrix.operator comm limit) relaxation.params.minDiagonal =
    inverse at same
  have factor (i : Fin matrix.rowCount) : weight inverse relaxation.params.damping i =
      relaxation.params.damping *
        invertEntry relaxation.params.minDiagonal (matrix.dense i i) := by
    rw [← weights, weight_invertDiagonal]
  have above (i : Fin matrix.rowCount) : 0 < weight inverse relaxation.params.damping i := by
    rw [factor]
    exact mul_pos positive (invertEntry_pos _ (diagonal i)).1
  have below (i : Fin matrix.rowCount) :
      weight inverse relaxation.params.damping i * matrix.action (Pi.single i 1) i < 2 := by
    have part := (invertEntry_pos relaxation.params.minDiagonal (diagonal i)).2
    rw [factor, given.valid.action_single given.square, mul_assoc]
    exact (mul_le_of_le_one_right positive.le part).trans_lt bounded
  obtain ⟨visits, every, corrections⟩ := exists_visits inverse kind sweeps
  have descent := energy_correct_le given.action_dotProduct above below visits
    (Vec.entries x) (Vec.entries y)
  rw [start, if_neg Bool.false_ne_true, corrections] at same
  rw [energy_eq, energy_eq, ← entries_inj, matrix.entries_product, same]
  refine ⟨descent.1, fun kept => ?_⟩
  exact funext fun i => descent.2 kept i (every i)

/-- Two symmetric sweeps that go further than to the minimum of a row, with one diagonal
entry below the bound. -/
theorem gaussSeidel_never_raises_energy_coupled :
    (ofParams ⟨.symmetricGaussSeidel, 2, 3 / 2, 3, false⟩ : Relaxation Rat 2).ComputesTo
      (coupledRows.operator .serial none) #v[1, -2] #v[3, 5] fun swept =>
        coupledRows.energy #v[1, -2] swept ≤ coupledRows.energy #v[1, -2] #v[3, 5] ∧
          (coupledRows.energy #v[1, -2] swept = coupledRows.energy #v[1, -2] #v[3, 5] →
            coupledRows.product #[3, 5] = #v[1, -2]) := by
  have diagonal : ∀ i : Fin 2, 0 < Csr.entryAt (coupledRows.row i) i := by decide +kernel
  exact gaussSeidel_never_raises_energy coupledRows .serial none
    (ofParams ⟨.symmetricGaussSeidel, 2, 3 / 2, 3, false⟩) symmetric_coupledRows diagonal
    (by decide +kernel) (by decide +kernel) (by decide) (by decide) rfl #v[1, -2] #v[3, 5]

end Relaxation

end HexSlab

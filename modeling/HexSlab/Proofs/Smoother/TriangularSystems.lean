import HexSlab.Proofs.Smoother.RowVisits
import HexSlab.Proofs.Sparse.ValidRows
import Mathlib.LinearAlgebra.Matrix.Block

/-!
# Gauss-Seidel sweeps solve triangular systems

An undamped visit satisfies its row, and a later visit leaves the row satisfied unless the
row reads the unknown that is moved. In a lower triangular matrix no row reads an unknown
after its own, so a forward pass satisfies all rows; in an upper triangular one a backward
pass does. Once all rows are satisfied nothing is left to correct.
-/

namespace HexSlab

open Vec

namespace Relaxation

section Passes

variable {R : Type} [Field R] {n : Nat} {action : Module.End R (Fin n → R)}
  {inverse : Vector R n} {damping : R}

/-- What a row reads after an unknown was moved. -/
theorem action_add_single (action : Module.End R (Fin n → R)) (y : Fin n → R) (c : R)
    (i j : Fin n) :
    action (y + c • Pi.single j 1) i = action y i + c * action (Pi.single j 1) i := by
  rw [map_add, map_smul]
  rfl

/-- Visits to other rows leave a row alone that does not read their unknowns. -/
theorem correct_apply_of_unread {order : List (Fin n)} {i : Fin n}
    (unread : ∀ j ∈ order, action (Pi.single j 1) i = 0) (x y : Fin n → R) :
    action (correct action x y (order.map (pointCorrection inverse damping))) i = action y i := by
  induction order generalizing y with
  | nil => rfl
  | cons j rest ih =>
    obtain ⟨first, others⟩ := List.forall_mem_cons.mp unread
    rw [correct_visit, ih others, action_add_single, first, mul_zero, add_zero]

/-- A pass whose rows read no unknown that it visits later satisfies all of them. -/
theorem correct_satisfies {order : List (Fin n)}
    (unread : order.Pairwise fun i j => action (Pi.single j 1) i = 0)
    (exact : ∀ i, weight inverse damping i * action (Pi.single i 1) i = 1) (x y : Fin n → R) :
    ∀ i ∈ order,
      action (correct action x y (order.map (pointCorrection inverse damping))) i = x i := by
  induction order generalizing y with
  | nil => exact fun i member => absurd member List.not_mem_nil
  | cons i rest ih =>
    obtain ⟨later, others⟩ := List.pairwise_cons.mp unread
    rw [correct_visit]
    refine List.forall_mem_cons.mpr ⟨?_, ih others _⟩
    -- undamped, the correction makes up for all of the residual
    have moved : weight inverse damping i * (x i - action y i) * action (Pi.single i 1) i =
        x i - action y i := by
      rw [mul_right_comm, exact, one_mul]
    rw [correct_apply_of_unread later, action_add_single, moved, add_sub_cancel]

/-- Corrections that begin with a pass which satisfies all rows, in whatever state that
finds the iterate, lead to a solution. -/
theorem action_correct_of_pass {order : List (Fin n)} (every : ∀ i, i ∈ order)
    (unread : order.Pairwise fun i j => action (Pi.single j 1) i = 0)
    (exact : ∀ i, weight inverse damping i * action (Pi.single i 1) i = 1) (x y : Fin n → R)
    (before after : List (Module.End R (Fin n → R))) :
    action (correct action x y
      (before ++ (order.map (pointCorrection inverse damping) ++ after))) = x := by
  have solved : action (correct action x (correct action x y before)
      (order.map (pointCorrection inverse damping))) = x :=
    funext fun i => correct_satisfies unread exact x _ i (every i)
  rw [correct_append, correct_append, correct_of_solved solved, solved]

end Passes

variable {R : Type} [Field R] [LinearOrder R] [Roots R]

/-- An entry that is not below the bound is inverted itself. -/
theorem invertEntry_of_le {least entry : R} (large : least ≤ |entry|) :
    invertEntry least entry = 1 / entry := by
  have above : ¬Scalar.abs entry < least := not_lt.mpr large
  rw [invertEntry, if_neg above]

/-- Settings of undamped sweeps whose bound takes the place of no diagonal entry. -/
structure InvertsDiagonal (matrix : Csr R) (params : RelaxationParams R) : Prop where
  /-- No correction is damped. -/
  undamped : params.damping = 1
  /-- There is a sweep. -/
  positive : 1 ≤ params.sweeps
  /-- No diagonal entry is zero. -/
  nonzero : ∀ i, matrix.dense i i ≠ 0
  /-- No diagonal entry is below the bound. -/
  large : ∀ i, params.minDiagonal ≤ |matrix.dense i i|

/-- Sweeps with a pass that satisfies all rows compute a solution. -/
theorem computesTo_of_pass {matrix : Csr R} (valid : matrix.Valid)
    (square : matrix.rowCount = matrix.colCount) (comm : Communicator R) (limit : Option Nat)
    {relaxation : Relaxation R matrix.rowCount}
    (inverts : InvertsDiagonal matrix relaxation.params) (kind : relaxation.params.sweep ≠ .jacobi)
    {order : List (Fin matrix.rowCount)} (every : ∀ i, i ∈ order)
    (unread : order.Pairwise fun i j => matrix.dense i j = 0)
    (split : ∀ inverse, ∃ before after, allCorrections inverse relaxation.params =
      before ++ (order.map (pointCorrection inverse relaxation.params.damping) ++ after))
    (x y : Vector R matrix.rowCount) :
    relaxation.ComputesTo (matrix.operator comm limit) x y fun solved =>
      matrix.product solved.toArray = x := by
  refine computesTo_of_correct valid square comm limit relaxation kind inverts.positive x y ?_
  intro solved same
  obtain ⟨before, after, corrections⟩ :=
    split (invertDiagonal (matrix.operator comm limit) relaxation.params.minDiagonal)
  have exact (i : Fin matrix.rowCount) :
      weight (invertDiagonal (matrix.operator comm limit) relaxation.params.minDiagonal)
        relaxation.params.damping i * matrix.action (Pi.single i 1) i = 1 := by
    rw [weight_invertDiagonal, inverts.undamped, one_mul, invertEntry_of_le (inverts.large i),
      valid.action_single square, one_div_mul_cancel (inverts.nonzero i)]
  have skipped : order.Pairwise fun i j => matrix.action (Pi.single j 1) i = 0 :=
    unread.imp fun zero => (valid.action_single square _ _).trans zero
  rw [← entries_inj, matrix.entries_product, same, corrections]
  exact action_correct_of_pass every skipped exact _ _ before after

/-- Gauss-Seidel sweeps solve triangular systems. In exact arithmetic, for every valid
square matrix stored by rows whose diagonal entries are neither zero nor below the bound
of the settings, and any positive number of undamped sweeps from zero or from the given
vector: computed and applied, a relaxation succeeds with a solution, for a lower
triangular matrix with Gauss-Seidel sweeps of either kind and for an upper triangular one
with symmetric sweeps. -/
theorem gaussSeidel_solves_triangular_systems (matrix : Csr R) (comm : Communicator R)
    (limit : Option Nat) (relaxation : Relaxation R matrix.rowCount) (valid : matrix.Valid)
    (square : matrix.rowCount = matrix.colCount)
    (inverts : InvertsDiagonal matrix relaxation.params) (x y : Vector R matrix.rowCount) :
    (matrix.dense.BlockTriangular OrderDual.toDual → relaxation.params.sweep ≠ .jacobi →
      relaxation.ComputesTo (matrix.operator comm limit) x y fun solved =>
        matrix.product solved.toArray = x) ∧
    (matrix.dense.BlockTriangular id → relaxation.params.sweep = .symmetricGaussSeidel →
      relaxation.ComputesTo (matrix.operator comm limit) x y fun solved =>
        matrix.product solved.toArray = x) := by
  have ascending := List.pairwise_lt_finRange matrix.rowCount
  constructor
  · intro lower kind
    refine computesTo_of_pass valid square comm limit inverts kind List.mem_finRange
      (ascending.imp fun before => lower (OrderDual.toDual_lt_toDual.mpr before)) ?_ x y
    intro inverse
    obtain ⟨rest, corrections⟩ := exists_allCorrections_eq inverse inverts.positive
    rw [corrections]
    cases sweep : relaxation.params.sweep with
    | jacobi => exact absurd sweep kind
    | gaussSeidel => exact ⟨[], rest, rfl⟩
    | symmetricGaussSeidel =>
      refine ⟨[], (List.finRange matrix.rowCount).reverse.map
        (pointCorrection inverse relaxation.params.damping) ++ rest, ?_⟩
      rw [sweepCorrections, List.map_append, List.append_assoc]
      rfl
  · intro upper symmetric
    have kind : relaxation.params.sweep ≠ .jacobi := by
      rw [symmetric]
      decide
    have descending := List.pairwise_reverse.mpr (ascending.imp fun before => upper before)
    refine computesTo_of_pass valid square comm limit inverts kind
      (fun i => List.mem_reverse.mpr (List.mem_finRange i)) descending ?_ x y
    intro inverse
    obtain ⟨rest, corrections⟩ := exists_allCorrections_eq inverse inverts.positive
    rw [corrections, symmetric]
    refine ⟨(List.finRange matrix.rowCount).map
      (pointCorrection inverse relaxation.params.damping), rest, ?_⟩
    rw [sweepCorrections, List.map_append, List.append_assoc]

/-- A lower triangular matrix. -/
def lowerRows : Csr Rat := .ofRows 3 [[(0, 2)], [(0, 1), (1, 4)], [(1, -1), (2, 1)]]

/-- An upper triangular matrix, the transpose of the other. -/
def upperRows : Csr Rat := .ofRows 3 [[(0, 2), (1, 1)], [(1, 4), (2, -1)], [(2, 1)]]

/-- Two forward sweeps for the one and a symmetric sweep from zero for the other. -/
theorem gaussSeidel_solves_triangular_systems_three :
    ((ofParams ⟨.gaussSeidel, 2, 1, 1, false⟩ : Relaxation Rat 3).ComputesTo
      (lowerRows.operator .serial none) #v[2, 5, 0] #v[7, 8, 9] fun solved =>
        lowerRows.product solved.toArray = #v[2, 5, 0]) ∧
    (ofParams ⟨.symmetricGaussSeidel, 1, 1, 1, true⟩ : Relaxation Rat 3).ComputesTo
      (upperRows.operator .serial none) #v[2, 5, 0] #v[7, 8, 9] fun solved =>
        upperRows.product solved.toArray = #v[2, 5, 0] := by
  constructor
  · have valid : lowerRows.Valid := Csr.valid_ofRows (by unfold Csr.ColumnsAscending; decide)
    have below : ∀ i j : Fin 3, i < j → Csr.entryAt (lowerRows.row i) j = 0 := by decide +kernel
    have inverts : InvertsDiagonal lowerRows ⟨.gaussSeidel, 2, 1, 1, false⟩ :=
      ⟨rfl, by decide, by decide +kernel, by decide +kernel⟩
    exact (gaussSeidel_solves_triangular_systems lowerRows .serial none
      (ofParams ⟨.gaussSeidel, 2, 1, 1, false⟩) valid rfl inverts #v[2, 5, 0]
      #v[7, 8, 9]).1 (fun i j before => below i j (OrderDual.toDual_lt_toDual.mp before))
      (by decide)
  · have valid : upperRows.Valid := Csr.valid_ofRows (by unfold Csr.ColumnsAscending; decide)
    have above : ∀ i j : Fin 3, j < i → Csr.entryAt (upperRows.row i) j = 0 := by decide +kernel
    have inverts : InvertsDiagonal upperRows ⟨.symmetricGaussSeidel, 1, 1, 1, true⟩ :=
      ⟨rfl, by decide, by decide +kernel, by decide +kernel⟩
    exact (gaussSeidel_solves_triangular_systems upperRows .serial none
      (ofParams ⟨.symmetricGaussSeidel, 1, 1, 1, true⟩) valid rfl inverts #v[2, 5, 0]
      #v[7, 8, 9]).2 (fun i j before => above i j before) rfl

end Relaxation

end HexSlab

import HexSlab.Proofs.Smoother.Corrections
import HexSlab.Proofs.Sparse.SymmetricRows

/-!
# Point relaxation with sweeps that read the same from both ends

The corrections of Jacobi sweeps are one correction again and again, and those of
symmetric Gauss-Seidel sweeps go forward and backward in turn. Either list is the
same from both ends, so for a symmetric matrix the map of all corrections is its
own adjoint. With plain Gauss-Seidel sweeps the transpose goes through the rows
backward, which is another map.
-/

namespace HexSlab.Relaxation

open Vec

section Lists

variable {R : Type} [Field R] {n : Nat}

/-- Every correction of a sweep weights the residual entry by entry. -/
theorem isSelfAdjoint_of_mem_sweepCorrections (inverse : Vector R n) (damping : R) {sweep : Sweep}
    {correction : Module.End R (Fin n → R)}
    (member : correction ∈ sweepCorrections inverse damping sweep) :
    pairing.IsSelfAdjoint correction := by
  have point (order : List (Fin n))
      (member : correction ∈ order.map (pointCorrection inverse damping)) :
      pairing.IsSelfAdjoint correction := by
    obtain ⟨i, -, rfl⟩ := List.mem_map.mp member
    exact isSelfAdjoint_diagonal _
  cases sweep with
  | jacobi =>
    rw [List.mem_singleton.mp member]
    exact isSelfAdjoint_diagonal _
  | gaussSeidel => exact point _ member
  | symmetricGaussSeidel => exact point _ member

/-- The corrections of a Jacobi sweep and of a symmetric Gauss-Seidel sweep are
the same from both ends. -/
theorem sweepCorrections_reverse (inverse : Vector R n) (damping : R) {sweep : Sweep}
    (kind : sweep = .jacobi ∨ sweep = .symmetricGaussSeidel) :
    (sweepCorrections inverse damping sweep).reverse = sweepCorrections inverse damping sweep := by
  rcases kind with rfl | rfl
  · rfl
  · rw [sweepCorrections, ← List.map_reverse, List.reverse_append, List.reverse_reverse]

/-- So are those of a number of such sweeps. -/
theorem allCorrections_reverse (inverse : Vector R n) {params : RelaxationParams R}
    (kind : params.sweep = .jacobi ∨ params.sweep = .symmetricGaussSeidel) :
    (allCorrections inverse params).reverse = allCorrections inverse params := by
  rw [allCorrections, List.reverse_flatten, List.map_replicate, List.reverse_replicate,
    sweepCorrections_reverse inverse params.damping kind]

/-- For a symmetric operator the map of such sweeps is its own adjoint. -/
theorem isSelfAdjoint_sweepMap {action : Module.End R (Fin n → R)}
    (symmetric : pairing.IsSelfAdjoint action) (inverse : Vector R n)
    {params : RelaxationParams R}
    (kind : params.sweep = .jacobi ∨ params.sweep = .symmetricGaussSeidel) :
    pairing.IsSelfAdjoint (sweepMap action (allCorrections inverse params)) := by
  have each : ∀ correction ∈ allCorrections inverse params, pairing.IsSelfAdjoint correction := by
    intro correction member
    obtain ⟨sweep, copy, member⟩ := List.mem_flatten.mp member
    rw [List.eq_of_mem_replicate copy] at member
    exact isSelfAdjoint_of_mem_sweepCorrections inverse params.damping member
  have transposed := sweepMap_adjoint symmetric (allCorrections inverse params) each
  rw [allCorrections_reverse inverse kind] at transposed
  exact transposed

end Lists

variable {σ R : Type} [Field R] [LinearOrder R] [Roots R] {n : Nat}

/-- An application from zero attains the image of the right-hand side under the
map of all corrections, and counts the call. -/
theorem applyInverse_attains_map (relaxation : Relaxation R n) {op : Operator σ R n}
    {action : Module.End R (Fin n → R)} {inverse : Vector R n} (linear : op.Realizes action)
    (reads : ReadsRows op action) (computed : relaxation.phase = .computed inverse)
    (zeroStart : relaxation.params.zeroStart = true) (x y : Vector R n) :
    (relaxation.applyInverse op x y).Attains fun result =>
      result.2 = relaxation.recordApply ∧
        Vec.entries result.1 =
          sweepMap action (allCorrections inverse relaxation.params) (Vec.entries x) := by
  refine (relaxation.applyInverse_attains (serves_of_both linear reads relaxation.params.sweep)
    computed x y).mono ?_
  rintro result ⟨counted, same⟩
  rw [zeroStart, if_pos rfl, correct_eq, map_zero, sub_zero, zero_add] at same
  exact ⟨counted, same⟩

/-- What a computed relaxation attains for vectors it attains for their entries,
since the checks succeed. -/
theorem applyInverseChecked_attains (relaxation : Relaxation R n) (op : Operator σ R n)
    {inverse : Vector R n} (computed : relaxation.phase = .computed inverse) (x y : Vector R n)
    {holds : Vector R n × Relaxation R n → Prop}
    (inner : (relaxation.applyInverse op x y).Attains holds) :
    (relaxation.applyInverseChecked op x.toArray y.toArray).Attains fun result =>
      ∃ value, result = (value.1.toArray, value.2) ∧ holds value := by
  have ready : relaxation.isComputed = true := by rw [isComputed, computed]
  rw [applyInverseChecked, if_pos ready]
  exact Attempt.attains_checkPair inner

/-- The rows of a valid square matrix can be read and say what its map does. -/
theorem readsRows_operator {matrix : Csr R} (valid : matrix.Valid)
    (square : matrix.rowCount = matrix.colCount) (comm : Communicator R) (limit : Option Nat) :
    ReadsRows (matrix.operator comm limit) matrix.action :=
  fun y i => rowSum?_eq (valid.column_lt square i) y

/-- Jacobi and symmetric Gauss-Seidel sweeps are symmetric preconditioners. In
exact arithmetic, for every symmetric matrix stored by rows and every computed
relaxation of one of these kinds that starts from zero, whatever its number of
sweeps, its damping and its inverted diagonal: applying it always succeeds, the
result is the image of the right-hand side under one linear map, that of all its
corrections, and the map may be moved from one side of the inner product to the
other. The scalars may be any field: their order is only looked at by other
functions, and need not agree with their arithmetic. -/
theorem sweeps_apply_symmetric_map (matrix : Csr R) (comm : Communicator R)
    (relaxation : Relaxation R matrix.rowCount) (inverse : Vector R matrix.rowCount)
    (given : matrix.Symmetric) (computed : relaxation.phase = .computed inverse)
    (kind : relaxation.params.sweep = .jacobi ∨ relaxation.params.sweep = .symmetricGaussSeidel)
    (zeroStart : relaxation.params.zeroStart = true) :
    SymmetricApplication comm (relaxation.applyInverseChecked (matrix.operator comm none))
      relaxation.recordApply
      (sweepMap matrix.action (allCorrections inverse relaxation.params)) := by
  have symmetric : pairing.IsSelfAdjoint matrix.action :=
    (isSelfAdjoint_iff matrix.action).mpr given.action_dotProduct
  refine symmetricApplication_of_isSelfAdjoint comm
    (isSelfAdjoint_sweepMap symmetric inverse kind) ?_
  intro x y
  exact applyInverseChecked_attains relaxation _ computed x y
    (applyInverse_attains_map relaxation (matrix.realizes_operator given.square comm)
      (readsRows_operator given.valid given.square comm none) computed zeroStart x y)

/-- A symmetric matrix that does not commute with its diagonal. -/
def coupledRows : Csr Rat := ⟨2, 2, #[0, 2, 4], #[0, 1, 0, 1], #[2, 1, 1, 4]⟩

/-- It is valid, square and equal to its transpose. -/
theorem symmetric_coupledRows : coupledRows.Symmetric where
  valid := {
    offsets_size := rfl
    first_offset := rfl
    offsets_ascend := by decide
    last_offset := rfl
    values_size := rfl
    columns_ascend := by
      unfold Csr.ColumnsAscending
      decide }
  square := rfl
  symmetric := by
    have same : ∀ i j : Fin 2, Csr.entryAt (coupledRows.row j) i =
        Csr.entryAt (coupledRows.row i) j := by decide +kernel
    exact Matrix.IsSymm.ext same

/-- Two damped symmetric Gauss-Seidel sweeps for it, from zero. -/
def coupledSweeps : Relaxation Rat 2 :=
  ⟨⟨.symmetricGaussSeidel, 2, 3 / 2, 0, true⟩, .computed #v[1 / 2, 1 / 4], 2, 4, .zero⟩

/-- The symmetric map of two symmetric sweeps. -/
theorem sweeps_apply_symmetric_map_coupled :
    SymmetricApplication .serial
      (coupledSweeps.applyInverseChecked (coupledRows.operator .serial none))
      coupledSweeps.recordApply
      (sweepMap coupledRows.action (allCorrections #v[1 / 2, 1 / 4] coupledSweeps.params)) :=
  sweeps_apply_symmetric_map coupledRows .serial coupledSweeps #v[1 / 2, 1 / 4]
    symmetric_coupledRows rfl (.inr rfl) rfl

end HexSlab.Relaxation

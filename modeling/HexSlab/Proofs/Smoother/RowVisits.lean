import HexSlab.Proofs.Smoother.RelaxationCalls
import HexSlab.Proofs.Smoother.RelaxationSymmetry

/-!
# Gauss-Seidel sweeps as visits of rows

All Gauss-Seidel sweeps of an application visit rows one after the other, and each visit
moves the iterate along one unit vector, by the residual of the row times the damping and
the inverted diagonal. A relaxation computed from a stored matrix and then applied always
comes to the result of its visits, since rows of a valid square matrix can be read.
-/

namespace HexSlab

open Vec

section Computed

variable {σ R : Type} [Scalar R] {n : Nat}

/-- Computed from the values of an operator and then applied, a relaxation succeeds from
every state, with a vector that has a property. -/
def Relaxation.ComputesTo (relaxation : Relaxation R n) (op : Operator σ R n) (x y : Vector R n)
    (holds : Vector R n → Prop) : Prop :=
  let computed := relaxation.compute op
  computed.error? = none ∧
    (computed.after.applyInverseChecked op x.toArray y.toArray).Attains fun result =>
      ∃ solved : Vector R n,
        result = (solved.toArray, computed.after.recordApply) ∧ holds solved

/-- A relaxation with sweeps is computed to the inverted diagonal that its settings ask
for, and keeps the settings. -/
theorem Relaxation.compute_succeeds (relaxation : Relaxation R n) (op : Operator σ R n)
    (positive : 1 ≤ relaxation.params.sweeps) :
    let computed := relaxation.compute op
    computed.error? = none ∧ computed.after.params = relaxation.params ∧
      computed.after.phase = .computed (invertDiagonal op relaxation.params.minDiagonal) := by
  obtain ⟨same, -⟩ := relaxation.prepared_if_needed op
  unfold compute
  generalize (if relaxation.isPrepared then relaxation else relaxation.prepare op) = prepared at *
  have sweeps : prepared.params.sweeps ≠ 0 := by
    rw [same]
    exact Nat.one_le_iff_ne_zero.mp positive
  dsimp only
  rw [if_neg sweeps]
  refine ⟨rfl, same, ?_⟩
  rw [← same]
  rfl

end Computed

namespace Relaxation

section Visits

variable {R : Type} [Field R] {n : Nat}

/-- The factor of the residual in the correction of a row. -/
def weight (inverse : Vector R n) (damping : R) (i : Fin n) : R := damping * Vec.entries inverse i

/-- A visit moves the iterate along a unit vector. -/
theorem pointCorrection_apply (inverse : Vector R n) (damping : R) (i : Fin n)
    (residual : Fin n → R) :
    pointCorrection inverse damping i residual =
      (weight inverse damping i * residual i) • Pi.single i 1 := by
  show (Pi.single i (damping * Vec.entries inverse i) : Fin n → R) * residual = _
  rw [← Pi.single_mul_left, ← Pi.single_smul, smul_eq_mul, mul_one]
  rfl

/-- The first visit and those after it. -/
theorem correct_visit (action : Module.End R (Fin n → R)) (inverse : Vector R n) (damping : R)
    (x y : Fin n → R) (i : Fin n) (rest : List (Fin n)) :
    correct action x y ((i :: rest).map (pointCorrection inverse damping)) =
      correct action x
        (y + (weight inverse damping i * (x i - action y i)) • Pi.single i 1)
        (rest.map (pointCorrection inverse damping)) := by
  have moved := pointCorrection_apply inverse damping i (x - action y)
  rw [List.map_cons, correct, List.foldl_cons, moved]
  rfl

/-- Where nothing is left of the residual, corrections change nothing. -/
theorem correct_of_solved {action : Module.End R (Fin n → R)} {x y : Fin n → R}
    (solved : action y = x) (corrections : List (Module.End R (Fin n → R))) :
    correct action x y corrections = y := by
  rw [correct_eq, solved, sub_self, map_zero, add_zero]

/-- All corrections begin with those of one sweep. -/
theorem exists_allCorrections_eq (inverse : Vector R n) {params : RelaxationParams R}
    (positive : 1 ≤ params.sweeps) :
    ∃ rest, allCorrections inverse params =
      sweepCorrections inverse params.damping params.sweep ++ rest := by
  obtain ⟨more, sweeps⟩ := Nat.exists_eq_add_of_le' positive
  refine ⟨(List.replicate more (sweepCorrections inverse params.damping params.sweep)).flatten, ?_⟩
  rw [allCorrections, sweeps, List.replicate_succ, List.flatten_cons]

/-- All Gauss-Seidel sweeps are visits of rows, and every row is visited. -/
theorem exists_visits (inverse : Vector R n) {params : RelaxationParams R}
    (kind : params.sweep ≠ .jacobi) (positive : 1 ≤ params.sweeps) :
    ∃ visits : List (Fin n), (∀ i, i ∈ visits) ∧
      allCorrections inverse params = visits.map (pointCorrection inverse params.damping) := by
  have once : ∃ order : List (Fin n), (∀ i, i ∈ order) ∧
      sweepCorrections inverse params.damping params.sweep =
        order.map (pointCorrection inverse params.damping) := by
    cases sweep : params.sweep with
    | jacobi => exact absurd sweep kind
    | gaussSeidel => exact ⟨List.finRange n, List.mem_finRange, rfl⟩
    | symmetricGaussSeidel =>
      exact ⟨List.finRange n ++ (List.finRange n).reverse,
        fun i => List.mem_append_left _ (List.mem_finRange i), rfl⟩
  obtain ⟨order, every, same⟩ := once
  refine ⟨(List.replicate params.sweeps order).flatten, ?_, ?_⟩
  · intro i
    have copies : params.sweeps ≠ 0 := Nat.one_le_iff_ne_zero.mp positive
    exact List.mem_flatten.mpr ⟨order, List.mem_replicate.mpr ⟨copies, rfl⟩, every i⟩
  · rw [allCorrections, same, List.map_flatten, List.map_replicate]

end Visits

variable {R : Type} [Field R] [LinearOrder R] [Roots R]

/-- The weight of a row of a stored matrix, once its diagonal is inverted. -/
theorem weight_invertDiagonal (matrix : Csr R) (comm : Communicator R) (limit : Option Nat)
    (least damping : R) (i : Fin matrix.rowCount) :
    weight (invertDiagonal (matrix.operator comm limit) least) damping i =
      damping * invertEntry least (matrix.dense i i) := by
  have entry : Vec.entries (invertDiagonal (matrix.operator comm limit) least) i =
      invertEntry least (Vec.entries matrix.diagonal i) :=
    Vector.getElem_map _ i.isLt
  rw [weight, entry, Csr.diagonal, entries_ofFn]
  rfl

/-- Gauss-Seidel sweeps computed from a valid square matrix come to the result of their
visits. -/
theorem computesTo_of_correct {matrix : Csr R} (valid : matrix.Valid)
    (square : matrix.rowCount = matrix.colCount) (comm : Communicator R) (limit : Option Nat)
    (relaxation : Relaxation R matrix.rowCount) (kind : relaxation.params.sweep ≠ .jacobi)
    (positive : 1 ≤ relaxation.params.sweeps) (x y : Vector R matrix.rowCount)
    {holds : Vector R matrix.rowCount → Prop}
    (follows : ∀ solved, Vec.entries solved = correct matrix.action (Vec.entries x)
      (if relaxation.params.zeroStart then 0 else Vec.entries y)
      (allCorrections (invertDiagonal (matrix.operator comm limit) relaxation.params.minDiagonal)
        relaxation.params) → holds solved) :
    relaxation.ComputesTo (matrix.operator comm limit) x y holds := by
  obtain ⟨accepted, params, computed⟩ :=
    relaxation.compute_succeeds (matrix.operator comm limit) positive
  refine ⟨accepted, ?_⟩
  generalize (relaxation.compute (matrix.operator comm limit)).after = after at params computed ⊢
  have serves : Serves (matrix.operator comm limit) matrix.action after.params.sweep := by
    rw [params]
    exact serves_of_reads (readsRows_operator valid square comm limit) kind
  have inner := after.applyInverse_attains serves computed x y
  refine (applyInverseChecked_attains after _ computed x y inner).mono ?_
  rintro result ⟨⟨solved, counted⟩, rfl, rfl, same⟩
  rw [params] at same
  exact ⟨solved, rfl, follows solved same⟩

end Relaxation

end HexSlab

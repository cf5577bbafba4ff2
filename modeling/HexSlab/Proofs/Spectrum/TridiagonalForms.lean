import HexSlab.Proofs.Krylov.InnerProduct
import HexSlab.Spectrum.Tridiagonal
import Mathlib.Analysis.Matrix.Spectrum
import Mathlib.LinearAlgebra.Eigenspace.Minpoly
import Mathlib.LinearAlgebra.Eigenspace.Matrix

/-!
# Quadratic forms of tridiagonal matrices

A symmetric tridiagonal matrix is given by two lists. Its quadratic form is the sum
of a term for each diagonal entry and one for each entry beside the diagonal, which
is how it is taken apart from the first row on. Bounds of the form are bounds of the
eigenvalues, so of the two that a routine for the extreme ones finds.
-/

namespace HexSlab.Tridiagonal

open Matrix

section Form

variable {R : Type} [Field R]

/-- The full matrix: zero but on the diagonal and on both sides of it. -/
def toMatrix (matrix : Tridiagonal R) :
    Matrix (Fin matrix.diagonal.length) (Fin matrix.diagonal.length) R :=
  Matrix.of fun i j =>
    if i = j then matrix.diagonal[i]
    else if i.val + 1 = j.val then matrix.offDiagonal.getD i 0
    else if j.val + 1 = i.val then matrix.offDiagonal.getD j 0
    else 0

/-- The matrix is its own transpose. -/
theorem isSymm_toMatrix (matrix : Tridiagonal R) : matrix.toMatrix.IsSymm := by
  ext i j
  simp only [toMatrix, transpose_apply, of_apply]
  by_cases same : i = j
  · rw [same]
  · have other : ¬j = i := fun back => same back.symm
    rw [if_neg same, if_neg other]
    split_ifs with above below
    · omega
    · rfl
    · rfl
    · rfl

/-- The quadratic form of the entries on the diagonal and on both sides of it, row by
row. -/
def form : List R → List R → List R → R
  | d :: diagonal, offDiagonal, x :: u =>
    d * (x * x) + offDiagonal.headD 0 * (x * u.headD 0 + u.headD 0 * x) +
      form diagonal offDiagonal.tail u
  | _, _, _ => 0

/-- A number added to the first diagonal entry. -/
theorem form_add_head (c d : R) (diagonal offDiagonal u : List R) :
    form ((d + c) :: diagonal) offDiagonal u =
      c * (u.headD 0 * u.headD 0) + form (d :: diagonal) offDiagonal u := by
  cases u with
  | nil => simp [form]
  | cons x u =>
    simp only [form, List.headD_cons]
    ring

/-- Only the first term of a row that has one entry meets a vector. -/
theorem sum_first {m : Nat} (e : R) (u : Fin m → R) :
    ∑ j : Fin m, (if j.val = 0 then e else 0) * u j = e * (List.ofFn u).headD 0 := by
  cases m with
  | zero => simp
  | succ m => simp [List.ofFn_succ]

/-- The quadratic form of the full matrix. -/
theorem dotProduct_toMatrix_mulVec (diagonal offDiagonal : List R)
    (u : Fin diagonal.length → R) :
    u ⬝ᵥ (toMatrix ⟨diagonal, offDiagonal⟩ *ᵥ u) = form diagonal offDiagonal (List.ofFn u) := by
  induction diagonal generalizing offDiagonal with
  | nil => rfl
  | cons d diagonal ih =>
    let rest : Fin diagonal.length → R := fun i => u i.succ
    let beside : Fin diagonal.length → R := fun j =>
      if j.val = 0 then offDiagonal.headD 0 else 0
    have right (j : Fin diagonal.length) :
        toMatrix ⟨d :: diagonal, offDiagonal⟩ 0 j.succ = beside j := by
      have apart : ¬(0 : Fin (d :: diagonal).length) = j.succ := (Fin.succ_ne_zero j).symm
      cases offDiagonal <;> simp [toMatrix, apart, beside]
    have down (i : Fin diagonal.length) :
        toMatrix ⟨d :: diagonal, offDiagonal⟩ i.succ 0 = beside i := by
      rw [← right i]
      exact congrFun (congrFun (isSymm_toMatrix ⟨d :: diagonal, offDiagonal⟩) 0) i.succ
    have inner (i j : Fin diagonal.length) :
        toMatrix ⟨d :: diagonal, offDiagonal⟩ i.succ j.succ =
          toMatrix ⟨diagonal, offDiagonal.tail⟩ i j := by
      simp [toMatrix]
    have along : ∑ j, beside j * rest j = offDiagonal.headD 0 * (List.ofFn rest).headD 0 :=
      sum_first _ rest
    have below : rest ⬝ᵥ (toMatrix ⟨diagonal, offDiagonal.tail⟩ *ᵥ rest) =
        form diagonal offDiagonal.tail (List.ofFn rest) := ih offDiagonal.tail rest
    have rows : ∑ i, rest i * (beside i * u 0 +
          ∑ j, toMatrix ⟨diagonal, offDiagonal.tail⟩ i j * rest j) =
        u 0 * ∑ j, beside j * rest j +
          rest ⬝ᵥ (toMatrix ⟨diagonal, offDiagonal.tail⟩ *ᵥ rest) := by
      simp only [mul_add, Finset.sum_add_distrib, Finset.mul_sum, dotProduct, mulVec]
      congr 1
      refine Finset.sum_congr rfl fun i _ => ?_
      ring
    calc u ⬝ᵥ (toMatrix ⟨d :: diagonal, offDiagonal⟩ *ᵥ u)
        = u 0 * (d * u 0 + ∑ j, beside j * rest j) +
            ∑ i, rest i * (beside i * u 0 +
              ∑ j, toMatrix ⟨diagonal, offDiagonal.tail⟩ i j * rest j) := by
          simp only [dotProduct, mulVec, List.length_cons, Fin.sum_univ_succ, right, down, inner]
          rfl
      _ = form (d :: diagonal) offDiagonal (List.ofFn u) := by
          have split : List.ofFn u = u 0 :: List.ofFn rest := List.ofFn_succ
          rw [rows, below, along, split, form]
          ring

end Form

section Eigenvalues

variable {R : Type} [Field R]

/-- The numbers by which the matrix multiplies some vector other than zero. -/
def eigenvalues (matrix : Tridiagonal R) : Set R :=
  {value | ∃ u, u ≠ 0 ∧ matrix.toMatrix *ᵥ u = value • u}

variable [LinearOrder R]

/-- Two numbers are the smallest and the largest eigenvalue. -/
structure HasExtremes (matrix : Tridiagonal R) (pair : R × R) : Prop where
  /-- The first is the smallest. -/
  least : IsLeast matrix.eigenvalues pair.1
  /-- The second is the largest. -/
  greatest : IsGreatest matrix.eigenvalues pair.2

variable {matrix : Tridiagonal R} {pair : R × R}

/-- The smallest eigenvalue is not above the largest. -/
theorem HasExtremes.le (extremes : matrix.HasExtremes pair) : pair.1 ≤ pair.2 :=
  extremes.greatest.2 extremes.least.1

variable [IsStrictOrderedRing R]

/-- An eigenvalue is a quotient of the quadratic form. -/
theorem exists_form_eq {value : R} (member : value ∈ matrix.eigenvalues) :
    ∃ u, u ≠ 0 ∧ 0 < u ⬝ᵥ u ∧ u ⬝ᵥ (matrix.toMatrix *ᵥ u) = value * (u ⬝ᵥ u) := by
  obtain ⟨u, nonzero, multiple⟩ := member
  refine ⟨u, nonzero, Vec.dotProduct_self_pos nonzero, ?_⟩
  rw [multiple, dotProduct_smul, smul_eq_mul]

/-- Where the form is positive both extreme eigenvalues are. -/
theorem HasExtremes.pos (extremes : matrix.HasExtremes pair)
    (positive : ∀ u, u ≠ 0 → 0 < u ⬝ᵥ (matrix.toMatrix *ᵥ u)) : 0 < pair.1 := by
  obtain ⟨u, nonzero, square, form_eq⟩ := exists_form_eq extremes.least.1
  have product : 0 < pair.1 * (u ⬝ᵥ u) := by
    rw [← form_eq]
    exact positive u nonzero
  exact (mul_pos_iff_of_pos_right square).mp product

/-- A lower bound of the form is one of the eigenvalues. -/
theorem HasExtremes.lower_le (extremes : matrix.HasExtremes pair) {least : R}
    (bound : ∀ u, least * (u ⬝ᵥ u) ≤ u ⬝ᵥ (matrix.toMatrix *ᵥ u)) : least ≤ pair.1 := by
  obtain ⟨u, -, square, form_eq⟩ := exists_form_eq extremes.least.1
  have product := bound u
  rw [form_eq] at product
  exact le_of_mul_le_mul_right product square

/-- An upper bound of the form is one of the eigenvalues. -/
theorem HasExtremes.le_upper (extremes : matrix.HasExtremes pair) {most : R}
    (bound : ∀ u, u ⬝ᵥ (matrix.toMatrix *ᵥ u) ≤ most * (u ⬝ᵥ u)) : pair.2 ≤ most := by
  obtain ⟨u, -, square, form_eq⟩ := exists_form_eq extremes.greatest.1
  have product := bound u
  rw [form_eq] at product
  exact le_of_mul_le_mul_right product square

end Eigenvalues

section Real

/-- Over the real numbers a matrix with a row has extreme eigenvalues: it is its own
adjoint, so there is one, and there are no more than finitely many. -/
theorem exists_hasExtremes (matrix : Tridiagonal ℝ) (nonempty : matrix.diagonal ≠ []) :
    ∃ pair, matrix.HasExtremes pair := by
  have hermitian : matrix.toMatrix.IsHermitian := isSymm_toMatrix matrix
  have finite : matrix.eigenvalues.Finite := by
    refine (Matrix.finite_spectrum matrix.toMatrix).subset ?_
    rintro value ⟨u, nonzero, multiple⟩
    have vector : Module.End.HasEigenvector (Matrix.toLin' matrix.toMatrix) value u :=
      Module.End.hasEigenvector_iff.mpr
        ⟨Module.End.mem_eigenspace_iff.mpr multiple, nonzero⟩
    have inside := (Module.End.hasEigenvalue_of_hasEigenvector vector).mem_spectrum
    rwa [Matrix.spectrum_toLin'] at inside
  have found : matrix.eigenvalues.Nonempty := by
    have rows : 0 < matrix.diagonal.length := List.length_pos_of_ne_nil nonempty
    let first : Fin matrix.diagonal.length := ⟨0, rows⟩
    refine ⟨hermitian.eigenvalues first, hermitian.eigenvectorBasis first, ?_,
      hermitian.mulVec_eigenvectorBasis first⟩
    intro zero
    have gone : hermitian.eigenvectorBasis first = 0 := WithLp.ofLp_injective 2 zero
    exact hermitian.eigenvectorBasis.orthonormal.ne_zero first gone
  have present : finite.toFinset.Nonempty := finite.toFinset_nonempty.mpr found
  have least := finite.toFinset.isLeast_min' present
  have greatest := finite.toFinset.isGreatest_max' present
  rw [finite.coe_toFinset] at least greatest
  exact ⟨(_, _), least, greatest⟩

/-- The extreme eigenvalues of a matrix of real numbers, where it has some. -/
noncomputable def exactExtremes (matrix : Tridiagonal ℝ) : ℝ × ℝ :=
  Classical.epsilon matrix.HasExtremes

/-- They are the extreme eigenvalues of every matrix with a row. -/
theorem hasExtremes_exactExtremes (matrix : Tridiagonal ℝ) (nonempty : matrix.diagonal ≠ []) :
    matrix.HasExtremes matrix.exactExtremes :=
  Classical.epsilon_spec (exists_hasExtremes matrix nonempty)

end Real

end HexSlab.Tridiagonal

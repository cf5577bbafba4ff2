import HexSlab.Proofs.Sparse.Product
import Mathlib.LinearAlgebra.Matrix.Symmetric

/-!
# Symmetric stored matrices

In a valid matrix no column comes twice in a row, so the form of a row is the sum
over all columns of the entries there, zero where none is stored. The product
with the matrix is then that with the square of its entries, and where this is
symmetric the product may be moved from one side of an inner product to the
other.
-/

namespace HexSlab.Csr

open Vec

variable {R : Type} [Field R] [LinearOrder R] [Roots R] {n : Nat}

/-- The entry of a row at a column is the first that is stored for it. -/
theorem entryAt_cons (entry : Nat × R) (rest : List (Nat × R)) (column : Nat) :
    entryAt (entry :: rest) column =
      if column = entry.1 then entry.2 else entryAt rest column := by
  rw [entryAt, List.lookup_cons]
  by_cases same : column = entry.1
  · rw [beq_iff_eq.mpr same, if_pos same]
    rfl
  · rw [beq_eq_false_iff_ne.mpr same, if_neg same]
    rfl

/-- Where nothing is stored the entry is zero. -/
theorem entryAt_eq_zero {row : List (Nat × R)} {column : Nat}
    (missing : column ∉ row.map (·.1)) : entryAt row column = 0 := by
  induction row with
  | nil => rfl
  | cons entry rest ih =>
    rw [List.map_cons, List.mem_cons, not_or] at missing
    rw [entryAt_cons, if_neg missing.1, ih missing.2]

/-- The form of a row that has no column twice, as a sum over all columns. -/
theorem rowForm_eq_sum {row : List (Nat × R)} (unique : (row.map (·.1)).Nodup)
    (inside : ∀ column ∈ row.map (·.1), column < n) (v : Fin n → R) :
    rowForm row v = ∑ j : Fin n, entryAt row j * v j := by
  induction row with
  | nil => exact (Finset.sum_eq_zero fun j _ => zero_mul (v j)).symm
  | cons entry rest ih =>
    rw [List.map_cons, List.nodup_cons] at unique
    have bound : entry.1 < n := inside entry.1 List.mem_cons_self
    have others : ∀ column ∈ rest.map (·.1), column < n := fun column member =>
      inside column (List.mem_cons_of_mem entry.1 member)
    have split (j : Fin n) : entryAt (entry :: rest) j * v j =
        (if j = ⟨entry.1, bound⟩ then entry.2 * v j else 0) + entryAt rest j * v j := by
      rw [entryAt_cons]
      by_cases here : j = ⟨entry.1, bound⟩
      · rw [if_pos here, if_pos (congrArg Fin.val here), here, entryAt_eq_zero unique.1, zero_mul,
          add_zero]
      · rw [if_neg here, if_neg fun same => here (Fin.ext same), zero_add]
    rw [rowForm_cons, ih unique.2 others, valueAt_of_lt bound]
    simp only [split, Finset.sum_add_distrib, Finset.sum_ite_eq', Finset.mem_univ, if_true]

/-- The entries of a matrix in a square of its rows, zero where none is stored. -/
def dense (matrix : Csr R) : Matrix (Fin matrix.rowCount) (Fin matrix.rowCount) R :=
  Matrix.of fun i j => entryAt (matrix.row i) j

/-- A valid matrix with as many columns as rows that equals its transpose. -/
structure Symmetric (matrix : Csr R) : Prop where
  /-- The arrays fit together. -/
  valid : matrix.Valid
  /-- There are as many columns as rows. -/
  square : matrix.rowCount = matrix.colCount
  /-- Entries on both sides of the diagonal are equal. -/
  symmetric : matrix.dense.IsSymm

omit [Field R] [LinearOrder R] [Roots R] in
/-- In a valid square matrix the columns of a row are places of a vector with an
entry for each row. -/
theorem Valid.column_lt {matrix : Csr R} (valid : matrix.Valid)
    (square : matrix.rowCount = matrix.colCount) (i : Fin matrix.rowCount) :
    ∀ column ∈ (matrix.row i).map (·.1), column < matrix.rowCount :=
  fun column member => square ▸ (valid.columns_ascend i i.isLt).2 column member

/-- The map of a valid square matrix is the product with the square of its
entries. -/
theorem Valid.action_eq_mulVec {matrix : Csr R} (valid : matrix.Valid)
    (square : matrix.rowCount = matrix.colCount) (v : Fin matrix.rowCount → R) :
    matrix.action v = matrix.dense.mulVec v := by
  funext i
  have unique : ((matrix.row i).map (·.1)).Nodup :=
    (valid.columns_ascend i i.isLt).1.imp Nat.ne_of_lt
  rw [action_apply, rowForm_eq_sum unique (valid.column_lt square i)]
  rfl

/-- The map of a valid square matrix takes a unit vector to a column. -/
theorem Valid.action_single {matrix : Csr R} (valid : matrix.Valid)
    (square : matrix.rowCount = matrix.colCount) (i j : Fin matrix.rowCount) :
    matrix.action (Pi.single j 1) i = matrix.dense i j := by
  rw [valid.action_eq_mulVec square, Matrix.mulVec_single_one]
  rfl

/-- The form of a matrix on a vector, as it is computed. -/
theorem dot_product_eq (matrix : Csr R) (x : Vector R matrix.rowCount) :
    dot x (matrix.product x.toArray) = entries x ⬝ᵥ matrix.action (entries x) := by
  rw [dot_eq_sum, entries_product]
  rfl

/-- The map of a symmetric matrix may be moved from one side of an inner product
to the other. -/
theorem Symmetric.action_dotProduct {matrix : Csr R} (given : matrix.Symmetric)
    (u v : Fin matrix.rowCount → R) : matrix.action u ⬝ᵥ v = u ⬝ᵥ matrix.action v := by
  rw [given.valid.action_eq_mulVec given.square, given.valid.action_eq_mulVec given.square,
    Matrix.dotProduct_mulVec, ← Matrix.mulVec_transpose, given.symmetric.eq]

end HexSlab.Csr

import HexSlab.Operator

/-!
# Matrices stored by rows

The stored entries of all rows stand one row after the other in two arrays, one
of columns and one of values; a third array says where each row begins. A valid
matrix has offsets that ascend from zero to the number of entries, and columns
that are in range and ascend strictly within each row.
-/

namespace HexSlab

/-- A matrix stored by rows. -/
structure Csr (R : Type) where
  /-- Number of rows. -/
  rowCount : Nat
  /-- Number of columns. -/
  colCount : Nat
  /-- Where each row begins, and where the last one ends. -/
  offsets : Array Nat
  /-- Columns of the entries. -/
  columns : Array Nat
  /-- Values of the entries. -/
  values : Array R
  deriving DecidableEq

namespace Csr

variable {R : Type}

/-- Number of stored entries. -/
def entryCount (matrix : Csr R) : Nat := matrix.values.size

/-- The stored entries of a row, by column. -/
def row (matrix : Csr R) (i : Nat) : List (Nat × R) :=
  let first := matrix.offsets.getD i 0
  let last := matrix.offsets.getD (i + 1) 0
  (matrix.columns.extract first last).toList.zip (matrix.values.extract first last).toList

/-- The stored entries of a row that the matrix has. -/
def row? (matrix : Csr R) (i : Nat) : Option (List (Nat × R)) :=
  if i < matrix.rowCount then some (matrix.row i) else none

/-- The rows of the matrix. -/
def rows (matrix : Csr R) : List (List (Nat × R)) :=
  (List.range matrix.rowCount).map matrix.row

/-- The matrix with given rows. -/
def ofRows (colCount : Nat) (rows : List (List (Nat × R))) : Csr R where
  rowCount := rows.length
  colCount := colCount
  offsets := ((rows.map List.length).scanl (· + ·) 0).toArray
  columns := (rows.flatten.map (·.1)).toArray
  values := (rows.flatten.map (·.2)).toArray

/-- Columns that ascend strictly and lie below a bound. -/
def ColumnsAscending (bound : Nat) (columns : List Nat) : Prop :=
  columns.Pairwise (· < ·) ∧ ∀ column ∈ columns, column < bound

/-- The arrays of a matrix fit together. -/
structure Valid (matrix : Csr R) : Prop where
  /-- One offset for each row, and one for the end. -/
  offsets_size : matrix.offsets.size = matrix.rowCount + 1
  /-- The first row begins with the first entry. -/
  first_offset : matrix.offsets.getD 0 0 = 0
  /-- No row ends before it begins. -/
  offsets_ascend : ∀ i < matrix.rowCount,
    matrix.offsets.getD i 0 ≤ matrix.offsets.getD (i + 1) 0
  /-- The last row ends with the last entry. -/
  last_offset : matrix.offsets.getD matrix.rowCount 0 = matrix.columns.size
  /-- Every entry has a column and a value. -/
  values_size : matrix.values.size = matrix.columns.size
  /-- The columns of each row ascend within range. -/
  columns_ascend : ∀ i < matrix.rowCount,
    ColumnsAscending matrix.colCount ((matrix.row i).map (·.1))

section Product

variable [Scalar R]

/-- The entry of a row at a column, zero where none is stored. -/
def entryAt (row : List (Nat × R)) (column : Nat) : R := (row.lookup column).getD 0

/-- The diagonal of the matrix. -/
def diagonal (matrix : Csr R) : Vector R matrix.rowCount :=
  Vector.ofFn fun i => entryAt (matrix.row i) i

/-- The product of a row with a vector: its terms are added in column order. -/
@[specialize] def rowProduct (row : List (Nat × R)) (x : Array R) : R :=
  row.foldl (fun sum entry => sum + entry.2 * x.getD entry.1 0) 0

/-- The product with a vector, row by row. -/
@[specialize] def product (matrix : Csr R) (x : Array R) : Vector R matrix.rowCount :=
  Vector.ofFn fun i => rowProduct (matrix.row i) x

/-- The product with a vector of some length, to be stored in a place for some
number of entries. The length of the vector is looked at first. -/
def productChecked (matrix : Csr R) (x : Array R) (places : Nat) :
    Except OperatorError (Vector R matrix.rowCount) :=
  if x.size ≠ matrix.colCount then .error (.lengthMismatch matrix.colCount x.size)
  else if places ≠ matrix.rowCount then .error (.lengthMismatch matrix.rowCount places)
  else .ok (matrix.product x)

/-- A counted call of the product, which fails beyond a limit of calls before
it looks at any length. -/
def applyCounted (matrix : Csr R) (limit : Option Nat) (x : Array R) (places : Nat) :
    Attempt Nat OperatorError (Vector R matrix.rowCount) := fun calls =>
  match countCall limit calls with
  | (.error error, calls) => (.error error, calls)
  | (.ok (), calls) => (matrix.productChecked x places, calls)

/-- The matrix as an operator on vectors with one entry for each row, whose
calls are counted. -/
def operator (matrix : Csr R) (comm : Communicator R) (limit : Option Nat) :
    Operator Nat R matrix.rowCount where
  comm := comm
  entryCount := matrix.entryCount
  diagonal := matrix.diagonal
  row := fun i => matrix.row i
  apply := fun x => matrix.applyCounted limit x.toArray matrix.rowCount

end Product

end Csr

end HexSlab

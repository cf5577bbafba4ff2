import HexSlab.Mesh.NodeSet
import HexSlab.Sparse.Csr

/-!
# Constraining rows

Replacing rows of a square matrix by rows of the identity fixes the values of
the unknowns there. The other rows are kept entry for entry, so a symmetric
matrix is in general no longer symmetric afterwards.
-/

namespace HexSlab.Csr

variable {R : Type} [Scalar R]

/-- A row, or the row of the identity if the set has it. -/
def constrainRow (matrix : Csr R) (set : NodeSet) (i : Nat) : List (Nat × R) :=
  if set.contains i then [(i, 1)] else matrix.row i

/-- The matrix with the rows of a set replaced by rows of the identity. Only a
square matrix can be constrained. -/
def constrainRows (matrix : Csr R) (set : NodeSet) : Option (Csr R) :=
  if matrix.rowCount = matrix.colCount then
    some (ofRows matrix.colCount ((List.range matrix.rowCount).map (matrix.constrainRow set)))
  else none

/-- What is said of a matrix that cannot be constrained. -/
def constrainMessage : String := "only square matrices can be constrained"

end HexSlab.Csr

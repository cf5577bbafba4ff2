import HexSlab.Proofs.Sparse.BoundaryValues
import HexSlab.Proofs.Sparse.RowArrays

/-!
# Constraining imposes the given rows

Constraining the rows of a set in a valid square matrix, whatever entries it stores,
leaves a valid matrix of the same size. A row of the set becomes the row of the
identity, and any other row stays entry for entry. So sets one after the other constrain
what their union does, and the product takes the values of a vector at the places of
the set and those of the old product elsewhere.
-/

namespace HexSlab.Csr

open Vec

section Rows

variable {R : Type} [Scalar R] {matrix constrained : Csr R} {set : NodeSet}

/-- What constraining the rows of a set makes of a matrix. -/
structure Constrains (matrix : Csr R) (set : NodeSet) (constrained : Csr R) : Prop where
  /-- It can be assembled row by row: each row that stays is found between its offsets,
  and the arrays are accepted in the end. -/
  assembled : matrix.assembleConstrained? set = some constrained
  /-- The number of rows stays. -/
  rowCount : constrained.rowCount = matrix.rowCount
  /-- The number of columns stays. -/
  colCount : constrained.colCount = matrix.colCount
  /-- The arrays fit together. -/
  valid : constrained.Valid
  /-- The rows of the set are those of the identity, and the others stay. -/
  rows : ∀ i, constrained.row? i =
    (matrix.row? i).map fun row => if set.contains i then [(i, 1)] else row
  /-- Constraining the rows of another set gives what the union of the sets does. -/
  union : ∀ other : NodeSet,
    constrained.constrainRows other = matrix.constrainRows (set.union other)

/-- The rows of a matrix with constrained rows. -/
theorem row?_constrainRows (made : matrix.constrainRows set = some constrained) (i : Nat) :
    constrained.row? i =
      (matrix.row? i).map fun row => if set.contains i then [(i, 1)] else row := by
  obtain ⟨rowCount, -, rows⟩ := constrainRows_eq_some made
  unfold row?
  rw [rowCount]
  split
  · rename_i inside
    rw [rows i inside]
    rfl
  · rfl

/-- A row constrained by one set after the other is constrained by their union. -/
theorem constrainRow_union (made : matrix.constrainRows set = some constrained)
    (other : NodeSet) {i : Nat} (inside : i < matrix.rowCount) :
    constrained.constrainRow other i = matrix.constrainRow (set.union other) i := by
  obtain ⟨-, -, rows⟩ := constrainRows_eq_some made
  unfold constrainRow
  rw [NodeSet.contains_union, rows i inside, constrainRow]
  cases set.contains i
  · rfl
  · exact ite_self _

/-- Constraining by one set after the other is constraining by their union. -/
theorem constrainRows_union (made : matrix.constrainRows set = some constrained)
    (other : NodeSet) :
    constrained.constrainRows other = matrix.constrainRows (set.union other) := by
  obtain ⟨rowCount, colCount, -⟩ := constrainRows_eq_some made
  have rows : (List.range matrix.rowCount).map (constrained.constrainRow other) =
      (List.range matrix.rowCount).map (matrix.constrainRow (set.union other)) :=
    List.map_congr_left fun i listed => constrainRow_union made other (List.mem_range.mp listed)
  unfold constrainRows
  rw [rowCount, colCount, rows]

/-- Constraining the rows of a valid square matrix has a result, as it is meant. -/
theorem exists_constrains (valid : matrix.Valid) (square : matrix.rowCount = matrix.colCount)
    (set : NodeSet) :
    ∃ constrained, matrix.constrainRows set = some constrained ∧
      matrix.Constrains set constrained := by
  have made : matrix.constrainRows set =
      some (ofRows matrix.colCount ((List.range matrix.rowCount).map (matrix.constrainRow set))) :=
    if_pos square
  obtain ⟨rowCount, colCount, -⟩ := constrainRows_eq_some made
  refine ⟨_, made, ?_⟩
  exact {
    assembled := (assembleConstrained?_eq valid set).trans made
    rowCount := rowCount
    colCount := colCount
    valid := valid_ofRows (columnsAscending_constrainRow valid square set)
    rows := row?_constrainRows made
    union := constrainRows_union made }

end Rows

section Images

variable {R : Type} [Field R] [LinearOrder R] [Roots R] {matrix constrained : Csr R}
  {set : NodeSet}

/-- The product with a constrained row, for a vector of any length. -/
theorem rowProduct_constrainRow (matrix : Csr R) (set : NodeSet) (i : Nat) (x : Array R) :
    rowProduct (matrix.constrainRow set i) x =
      if set.contains i then x.getD i 0 else rowProduct (matrix.row i) x := by
  unfold constrainRow
  split
  · exact (zero_add _).trans (one_mul _)
  · rfl

/-- The product with constrained rows, place by place. -/
theorem toArray_product_constrainRows (made : matrix.constrainRows set = some constrained)
    (x : Array R) :
    (constrained.product x).toArray = Array.ofFn fun i : Fin matrix.rowCount =>
      if set.contains i then x.getD i 0 else entries (matrix.product x) i := by
  obtain ⟨rowCount, -, rows⟩ := constrainRows_eq_some made
  refine Array.ext ?_ ?_
  · rw [Vector.size_toArray, Array.size_ofFn, rowCount]
  · intro i inside bound
    rw [Array.size_ofFn] at bound
    simp only [Vector.getElem_toArray, Array.getElem_ofFn, product, entries_ofFn,
      Vector.getElem_ofFn]
    rw [rows i bound, rowProduct_constrainRow]

/-- What is made of a checked product, check by check. -/
theorem map_productChecked {α : Type} (matrix : Csr R) (make : Vector R matrix.rowCount → α)
    (x : Array R) (places : Nat) :
    (matrix.productChecked x places).map make =
      if x.size ≠ matrix.colCount then .error (.lengthMismatch matrix.colCount x.size)
      else if places ≠ matrix.rowCount then .error (.lengthMismatch matrix.rowCount places)
      else .ok (make (matrix.product x)) := by
  unfold productChecked
  split
  · rfl
  · split <;> rfl

/-- The checked product with constrained rows fails as that of the matrix does, and has
the values of the vector at the places of the set. -/
theorem productChecked_constrainRows (made : matrix.constrainRows set = some constrained)
    (x : Array R) (places : Nat) :
    (constrained.productChecked x places).map (·.toArray) =
      (matrix.productChecked x places).map fun image =>
        Array.ofFn fun i : Fin matrix.rowCount =>
          if set.contains i then x.getD i 0 else entries image i := by
  obtain ⟨rowCount, colCount, -⟩ := constrainRows_eq_some made
  rw [map_productChecked, map_productChecked, toArray_product_constrainRows made, rowCount,
    colCount]

end Images

/-- Every valid square matrix, with any rows and any stored zeros, can have the rows of
every set constrained: the result is valid and of the same size, it has the rows of the
identity for the set and those of the matrix otherwise, and constraining it again goes
by the union of the sets. In exact arithmetic a product then has the values of the
vector at the places of the set, and those of the old product elsewhere. -/
theorem constrainRows_imposes_rows :
    (∀ (R : Type) [Scalar R] (matrix : Csr R) (set : NodeSet), matrix.Valid →
      matrix.rowCount = matrix.colCount →
        ∃ constrained, matrix.constrainRows set = some constrained ∧
          matrix.Constrains set constrained) ∧
    ∀ (R : Type) [Field R] [LinearOrder R] [Roots R] (matrix constrained : Csr R)
      (set : NodeSet), matrix.constrainRows set = some constrained →
        ∀ (x : Array R) (places : Nat),
          (constrained.productChecked x places).map (·.toArray) =
            (matrix.productChecked x places).map fun image =>
              Array.ofFn fun i : Fin matrix.rowCount =>
                if set.contains i then x.getD i 0 else entries image i :=
  ⟨fun _ _ _ set valid square => exists_constrains valid square set,
    fun _ _ _ _ _ _ _ made => productChecked_constrainRows made⟩

/-- Three rows, of which the first has no entries and the second a stored zero. -/
def sparseRows : Csr ℚ := ⟨3, 3, #[0, 0, 2, 4], #[0, 1, 1, 2], #[5, 0, 3, 7]⟩

/-- The rows with a stored zero become valid rows when a set with a larger capacity than
they are many takes the last of them. -/
theorem constrainRows_imposes_rows_last :
    sparseRows.Valid ∧ sparseRows.rowCount = sparseRows.colCount ∧
      ∃ constrained, sparseRows.constrainRows ⟨#[false, false, true, false, true]⟩ =
          some constrained ∧
        sparseRows.Constrains ⟨#[false, false, true, false, true]⟩ constrained ∧
        (constrained.productChecked #[1, 2, 4] 3).map (·.toArray) =
          (sparseRows.productChecked #[1, 2, 4] 3).map fun image =>
            Array.ofFn fun i : Fin sparseRows.rowCount =>
              if (⟨#[false, false, true, false, true]⟩ : NodeSet).contains i
              then (#[1, 2, 4] : Array ℚ).getD i 0 else entries image i := by
  have valid : sparseRows.Valid := by decide +kernel
  obtain ⟨constrained, made, meant⟩ := constrainRows_imposes_rows.1 ℚ sparseRows
    ⟨#[false, false, true, false, true]⟩ valid rfl
  exact ⟨valid, rfl, constrained, made, meant,
    constrainRows_imposes_rows.2 ℚ sparseRows constrained _ made #[1, 2, 4] 3⟩

end HexSlab.Csr

import HexSlab.Proofs.Sparse.ValidRows
import HexSlab.Sparse.Constrain

/-!
# Rows appended to three arrays

A stored matrix is assembled by appending one row after the other to its arrays of
columns and values and noting where each row ends. The arrays are then those of the
appended rows, and they fit together if the columns of each row ascend within range.
So constraining the rows of a valid matrix in this way finds every row where its offsets
say, and ends with arrays that are accepted.
-/

namespace HexSlab

/-- A stretch of an array, if the array has it. -/
def stretch? {α : Type} (entries : Array α) (first last : Nat) : Option (Array α) :=
  if first ≤ last ∧ last ≤ entries.size then some (entries.extract first last) else none

/-- The arrays of a matrix while its rows are appended. -/
structure RowArrays (R : Type) where
  /-- Where each row begins, and where the next one will. -/
  offsets : Array Nat
  /-- Columns of the entries. -/
  columns : Array Nat
  /-- Values of the entries. -/
  values : Array R

namespace RowArrays

variable {R : Type}

/-- Without rows, the first one will begin at zero. -/
def empty : RowArrays R := ⟨#[0], #[], #[]⟩

/-- One row more, with given columns and values. -/
def append (arrays : RowArrays R) (columns : Array Nat) (values : Array R) : RowArrays R where
  offsets := arrays.offsets.push (arrays.columns ++ columns).size
  columns := arrays.columns ++ columns
  values := arrays.values ++ values

/-- The arrays of given rows. -/
def ofRows (rows : List (List (Nat × R))) : RowArrays R where
  offsets := ((rows.map List.length).scanl (· + ·) 0).toArray
  columns := (rows.flatten.map (·.1)).toArray
  values := (rows.flatten.map (·.2)).toArray

/-- Appending a row to the arrays of some rows gives the arrays of all of them. -/
theorem append_ofRows (rows : List (List (Nat × R))) (row : List (Nat × R)) :
    (ofRows rows).append (row.map (·.1)).toArray (row.map (·.2)).toArray =
      ofRows (rows ++ [row]) := by
  have size : ((rows.flatten.map (·.1)).toArray ++ (row.map (·.1)).toArray).size =
      rows.flatten.length + row.length := by
    rw [Array.size_append, List.size_toArray, List.size_toArray, List.length_map, List.length_map]
  have offsets : ((rows ++ [row]).map List.length).scanl (· + ·) 0 =
      (rows.map List.length).scanl (· + ·) 0 ++ [rows.flatten.length + row.length] := by
    rw [List.map_append, List.map_singleton, List.scanl_append, List.scanl_cons, List.scanl_nil,
      List.tail_cons, ← List.sum_eq_foldl_nat, ← List.length_flatten]
  unfold append ofRows
  rw [size, offsets]
  simp only [List.push_toArray, List.append_toArray, ← List.map_append, List.flatten_append,
    List.flatten_singleton]

end RowArrays

namespace Csr

variable {R : Type}

instance (bound : Nat) (columns : List Nat) : Decidable (ColumnsAscending bound columns) :=
  inferInstanceAs (Decidable (columns.Pairwise (· < ·) ∧ ∀ column ∈ columns, column < bound))

/-- What it takes for the arrays to fit together, check by check. -/
theorem valid_iff (matrix : Csr R) :
    matrix.Valid ↔
      matrix.offsets.size = matrix.rowCount + 1 ∧ matrix.offsets.getD 0 0 = 0 ∧
        (∀ i < matrix.rowCount, matrix.offsets.getD i 0 ≤ matrix.offsets.getD (i + 1) 0) ∧
        matrix.offsets.getD matrix.rowCount 0 = matrix.columns.size ∧
        matrix.values.size = matrix.columns.size ∧
        ∀ i < matrix.rowCount, ColumnsAscending matrix.colCount ((matrix.row i).map (·.1)) :=
  ⟨fun valid => ⟨valid.offsets_size, valid.first_offset, valid.offsets_ascend, valid.last_offset,
      valid.values_size, valid.columns_ascend⟩,
    fun ⟨size, first, ascend, last, values, columns⟩ =>
      ⟨size, first, ascend, last, values, columns⟩⟩

instance (matrix : Csr R) : Decidable matrix.Valid :=
  decidable_of_iff _ matrix.valid_iff.symm

/-- The matrix with given arrays, if they fit together. -/
def ofArrays? (rowCount colCount : Nat) (arrays : RowArrays R) : Option (Csr R) :=
  let matrix : Csr R := ⟨rowCount, colCount, arrays.offsets, arrays.columns, arrays.values⟩
  if matrix.Valid then some matrix else none

/-- The arrays of rows whose columns ascend within range are accepted. -/
theorem ofArrays?_ofRows {colCount : Nat} {rows : List (List (Nat × R))}
    (ascending : ∀ row ∈ rows, ColumnsAscending colCount (row.map (·.1))) :
    ofArrays? rows.length colCount (.ofRows rows) = some (ofRows colCount rows) :=
  if_pos (valid_ofRows ascending)

namespace Valid

variable {matrix : Csr R}

/-- Every row ends within the entries. -/
theorem offset_le (valid : matrix.Valid) {i : Nat} (inside : i ≤ matrix.rowCount) :
    matrix.offsets.getD i 0 ≤ matrix.columns.size := by
  -- the offsets ascend, so the induction goes down from the last of them
  induction inside using Nat.decreasingInduction with
  | self => exact valid.last_offset.le
  | of_succ i below ih => exact (valid.offsets_ascend i below).trans ih

/-- Where a row begins or ends is stored. -/
theorem getElem?_offsets (valid : matrix.Valid) {i : Nat} (inside : i ≤ matrix.rowCount) :
    matrix.offsets[i]? = some (matrix.offsets.getD i 0) := by
  have bound : i < matrix.offsets.size := by
    rw [valid.offsets_size]
    exact Nat.lt_succ_of_le inside
  rw [Array.getD_eq_getD_getElem?, Array.getElem?_eq_getElem bound, Option.getD_some]

/-- The columns of a row are stored between its offsets. -/
theorem stretch?_columns (valid : matrix.Valid) {i : Nat} (inside : i < matrix.rowCount) :
    stretch? matrix.columns (matrix.offsets.getD i 0) (matrix.offsets.getD (i + 1) 0) =
      some ((matrix.row i).map (·.1)).toArray := by
  have ends := valid.offset_le inside
  rw [stretch?, if_pos ⟨valid.offsets_ascend i inside, ends⟩, row, List.map_fst_zip]
  simp only [Array.length_toList, Array.size_extract, valid.values_size, le_refl]

/-- So are its values. -/
theorem stretch?_values (valid : matrix.Valid) {i : Nat} (inside : i < matrix.rowCount) :
    stretch? matrix.values (matrix.offsets.getD i 0) (matrix.offsets.getD (i + 1) 0) =
      some ((matrix.row i).map (·.2)).toArray := by
  have ends := valid.offset_le inside
  rw [← valid.values_size] at ends
  rw [stretch?, if_pos ⟨valid.offsets_ascend i inside, ends⟩, row, List.map_snd_zip]
  simp only [Array.length_toList, Array.size_extract, valid.values_size, le_refl]

end Valid

section Constrain

variable [Scalar R] {matrix : Csr R}

/-- Append a row of a matrix, or the row of the identity if the set has it. Nothing is
left if the arrays of the matrix do not have the row. -/
def appendConstrained? (matrix : Csr R) (set : NodeSet) (arrays : RowArrays R) (i : Nat) :
    Option (RowArrays R) :=
  if set.contains i then some (arrays.append #[i] #[1])
  else do
    let first ← matrix.offsets[i]?
    let last ← matrix.offsets[i + 1]?
    let columns ← stretch? matrix.columns first last
    let values ← stretch? matrix.values first last
    return arrays.append columns values

/-- The matrix that is assembled row by row, with the rows of the identity in place of
those of a set. There is none if a row cannot be read, or if the arrays do not fit
together in the end. -/
def assembleConstrained? (matrix : Csr R) (set : NodeSet) : Option (Csr R) :=
  if matrix.rowCount = matrix.colCount then do
    let arrays ← (List.range matrix.rowCount).foldlM (matrix.appendConstrained? set) .empty
    ofArrays? matrix.rowCount matrix.colCount arrays
  else none

/-- One row of a valid matrix is appended as it stands, or as it is constrained. -/
theorem appendConstrained?_ofRows (valid : matrix.Valid) (set : NodeSet) {i : Nat}
    (inside : i < matrix.rowCount) (rows : List (List (Nat × R))) :
    matrix.appendConstrained? set (.ofRows rows) i =
      some (.ofRows (rows ++ [matrix.constrainRow set i])) := by
  rw [← RowArrays.append_ofRows, appendConstrained?, constrainRow]
  split
  · rfl
  · rw [valid.getElem?_offsets inside.le, valid.getElem?_offsets inside]
    simp only [Option.bind_eq_bind, Option.bind_some, valid.stretch?_columns inside,
      valid.stretch?_values inside]
    rfl

/-- After a number of rows the arrays are those of these rows. -/
theorem foldlM_appendConstrained? (valid : matrix.Valid) (set : NodeSet) {count : Nat}
    (bound : count ≤ matrix.rowCount) :
    (List.range count).foldlM (matrix.appendConstrained? set) .empty =
      some (.ofRows ((List.range count).map (matrix.constrainRow set))) := by
  induction count with
  | zero => rfl
  | succ count ih =>
    rw [List.range_succ, List.foldlM_append, ih (Nat.le_of_succ_le bound), List.map_append]
    exact (Option.bind_some _ _).trans <| (Option.bind_fun_some _).trans <|
      appendConstrained?_ofRows valid set bound _

/-- The columns of the constrained rows ascend within range. -/
theorem columnsAscending_constrainRow (valid : matrix.Valid)
    (square : matrix.rowCount = matrix.colCount) (set : NodeSet) :
    ∀ row ∈ (List.range matrix.rowCount).map (matrix.constrainRow set),
      ColumnsAscending matrix.colCount (row.map (·.1)) := by
  intro row member
  obtain ⟨i, listed, rfl⟩ := List.mem_map.mp member
  have inside : i < matrix.rowCount := List.mem_range.mp listed
  unfold constrainRow
  split
  · refine ⟨List.pairwise_singleton _ _, ?_⟩
    intro column single
    rw [List.mem_singleton.mp single, ← square]
    exact inside
  · exact valid.columns_ascend i inside

/-- Assembled row by row, a valid matrix has the constrained rows, and its arrays fit
together. -/
theorem assembleConstrained?_eq (valid : matrix.Valid) (set : NodeSet) :
    matrix.assembleConstrained? set = matrix.constrainRows set := by
  unfold assembleConstrained? constrainRows
  split
  · rename_i square
    have accepted := ofArrays?_ofRows (columnsAscending_constrainRow valid square set)
    rw [List.length_map, List.length_range] at accepted
    rw [foldlM_appendConstrained? valid set le_rfl]
    exact accepted
  · rfl

end Constrain

end Csr

end HexSlab

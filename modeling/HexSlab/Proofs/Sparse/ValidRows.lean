import HexSlab.Proofs.Sparse.Product

/-!
# Matrices from rows and from triplets are valid

The arrays of a matrix made from rows always fit together, so it is valid as soon as
the columns of each row ascend within range. Adding values keeps the columns of a row
in order and brings in none but those listed: triplets in range make a valid matrix,
in whatever order they come.
-/

namespace HexSlab

variable {R : Type}

namespace Csr

/-- A matrix made from rows is valid if the columns of each row ascend within range. -/
theorem valid_ofRows {colCount : Nat} {rows : List (List (Nat × R))}
    (ascending : ∀ row ∈ rows, ColumnsAscending colCount (row.map (·.1))) :
    (ofRows colCount rows).Valid := by
  have entry {i : Nat} (inside : i < rows.length) : rows[i]? = some rows[i] :=
    List.getElem?_eq_getElem inside
  constructor
  case offsets_size =>
    show ((rows.map List.length).scanl (· + ·) 0).length = rows.length + 1
    rw [List.length_scanl, List.length_map]
  case first_offset => exact getD_offsets_ofRows colCount rows (Nat.zero_le _)
  case offsets_ascend =>
    intro i inside
    have bound : i < rows.length := inside
    rw [getD_offsets_ofRows colCount rows bound.le, getD_offsets_ofRows colCount rows bound,
      length_flatten_take_succ (entry bound)]
    exact Nat.le_add_right _ _
  case last_offset =>
    show (ofRows colCount rows).offsets.getD rows.length 0 = (rows.flatten.map (·.1)).length
    rw [getD_offsets_ofRows colCount rows le_rfl, List.take_length, List.length_map]
  case values_size =>
    show (rows.flatten.map (·.2)).length = (rows.flatten.map (·.1)).length
    rw [List.length_map, List.length_map]
  case columns_ascend =>
    intro i inside
    have bound : i < rows.length := inside
    rw [row_ofRows colCount rows (entry bound)]
    exact ascending _ (List.getElem_mem bound)

end Csr

namespace Triplets

variable [Scalar R]

/-- A row whose columns ascend within range stays so with a value in range added. -/
theorem columnsAscending_addToRow {bound column : Nat} (value : R) {row : List (Nat × R)}
    (inside : column < bound) (ascending : Csr.ColumnsAscending bound (row.map (·.1))) :
    Csr.ColumnsAscending bound ((addToRow column value row).map (·.1)) := by
  refine ⟨pairwise_addToRow ascending.1, ?_⟩
  intro other member
  rcases mem_addToRow.mp member with rfl | stored
  · exact inside
  · exact ascending.2 other stored

/-- So do all rows with a triplet put in its place. -/
theorem columnsAscending_place {bound : Nat} {rows : Array (List (Nat × R))}
    (ascending : ∀ row ∈ rows, Csr.ColumnsAscending bound (row.map (·.1)))
    {entry : Nat × Nat × R} (inside : entry.2.1 < bound) :
    ∀ row ∈ place rows entry, Csr.ColumnsAscending bound (row.map (·.1)) := by
  intro row member
  obtain ⟨i, size, here⟩ := Array.mem_iff_getElem.mp member
  have old : i < rows.size := by
    rw [place, Array.size_modify] at size
    exact size
  have kept := ascending rows[i] (Array.getElem_mem old)
  rw [← here]
  simp only [place, Array.getElem_modify]
  split
  · exact columnsAscending_addToRow _ inside kept
  · exact kept

/-- Triplets in range make rows whose columns ascend within range. -/
theorem columnsAscending_rows {triplets : Triplets R} (inRange : triplets.InRange) :
    ∀ row ∈ triplets.rows, Csr.ColumnsAscending triplets.colCount (row.map (·.1)) := by
  have fold (entries : List (Nat × Nat × R)) (rows : Array (List (Nat × R)))
      (inside : ∀ entry ∈ entries, entry.2.1 < triplets.colCount)
      (ascending : ∀ row ∈ rows, Csr.ColumnsAscending triplets.colCount (row.map (·.1))) :
      ∀ row ∈ entries.foldl place rows,
        Csr.ColumnsAscending triplets.colCount (row.map (·.1)) := by
    induction entries generalizing rows with
    | nil => exact ascending
    | cons entry rest ih =>
      rw [List.forall_mem_cons] at inside
      exact ih _ inside.2 (columnsAscending_place ascending inside.1)
  refine fold triplets.entries _ (fun entry listed => (inRange entry listed).2) ?_
  intro row member
  rw [(Array.mem_replicate.mp member).2]
  exact ⟨List.Pairwise.nil, fun column none => by cases none⟩

/-- Triplets in range make a valid matrix. -/
theorem valid_toCsr {triplets : Triplets R} (inRange : triplets.InRange) :
    triplets.toCsr.Valid :=
  Csr.valid_ofRows fun row member =>
    columnsAscending_rows inRange row (Array.mem_toList_iff.mp member)

end Triplets

end HexSlab

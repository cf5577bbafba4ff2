import HexSlab.Sparse.Csr

/-!
# Matrices from triplets

A matrix can be listed as triplets of row, column and value in any order. To
store it by rows, each triplet is put into its row at its column; the values of
triplets for the same place are added in the order in which they are listed.
-/

namespace HexSlab

/-- A list of entries with their places. -/
structure Triplets (R : Type) where
  /-- Number of rows. -/
  rowCount : Nat
  /-- Number of columns. -/
  colCount : Nat
  /-- Row, column and value of each entry. -/
  entries : List (Nat × Nat × R)

namespace Triplets

variable {R : Type}

/-- Every entry lies in the matrix. -/
def InRange (triplets : Triplets R) : Prop :=
  ∀ entry ∈ triplets.entries, entry.1 < triplets.rowCount ∧ entry.2.1 < triplets.colCount

instance (triplets : Triplets R) : Decidable triplets.InRange :=
  inferInstanceAs (Decidable (∀ entry ∈ triplets.entries, _))

variable [Scalar R]

/-- Add a value to a row at a column. -/
def addToRow (column : Nat) (value : R) : List (Nat × R) → List (Nat × R)
  | [] => [(column, value)]
  | entry :: rest =>
    if column < entry.1 then (column, value) :: entry :: rest
    else if column = entry.1 then (column, entry.2 + value) :: rest
    else entry :: addToRow column value rest

/-- Put a triplet into its row. -/
def place (rows : Array (List (Nat × R))) (entry : Nat × Nat × R) : Array (List (Nat × R)) :=
  rows.modify entry.1 (addToRow entry.2.1 entry.2.2)

/-- The rows that the triplets add up to. -/
def rows (triplets : Triplets R) : Array (List (Nat × R)) :=
  triplets.entries.foldl place (Array.replicate triplets.rowCount [])

/-- The matrix that the triplets add up to. -/
def toCsr (triplets : Triplets R) : Csr R := Csr.ofRows triplets.colCount triplets.rows.toList

/-- The columns of a row after adding a value: those before, and the new one. -/
theorem mem_addToRow {column other : Nat} {value : R} {row : List (Nat × R)} :
    other ∈ (addToRow column value row).map (·.1) ↔ other = column ∨ other ∈ row.map (·.1) := by
  induction row with
  | nil => simp [addToRow]
  | cons entry rest ih =>
    unfold addToRow
    split
    · simp
    · split
      · rename_i same
        simp [same]
      · rw [List.map_cons, List.mem_cons, ih, List.map_cons, List.mem_cons]
        constructor <;> rintro (h | h | h) <;> simp [h]

/-- Adding a value keeps the columns of a row in ascending order. -/
theorem pairwise_addToRow {column : Nat} {value : R} {row : List (Nat × R)}
    (h : (row.map (·.1)).Pairwise (· < ·)) :
    ((addToRow column value row).map (·.1)).Pairwise (· < ·) := by
  induction row with
  | nil => simp [addToRow]
  | cons entry rest ih =>
    have hhead := (List.pairwise_cons.mp h).1
    have hrest := (List.pairwise_cons.mp h).2
    unfold addToRow
    split
    · rename_i before
      refine List.pairwise_cons.mpr ⟨fun other mem => ?_, h⟩
      rcases List.mem_cons.mp mem with rfl | mem
      · exact before
      · exact Nat.lt_trans before (hhead other mem)
    · split
      · rename_i same
        exact List.pairwise_cons.mpr ⟨fun other mem => same ▸ hhead other mem, hrest⟩
      · rename_i notBefore notSame
        refine List.pairwise_cons.mpr ⟨fun other mem => ?_, ih hrest⟩
        rcases mem_addToRow.mp mem with rfl | mem
        · exact Nat.lt_of_le_of_ne (Nat.le_of_not_lt notBefore) fun eq => notSame eq.symm
        · exact hhead other mem

end Triplets

end HexSlab

import HexSlab.Proofs.Exact
import HexSlab.Sparse.Triplets
import Mathlib.LinearAlgebra.Pi

/-!
# Stored matrices as linear maps

The product with a stored matrix is linear, whatever is stored: a row takes a
vector to the sum of its entries, each times the value at its column. A matrix
made from rows has these rows, and one made from triplets has rows that act as
the triplets that were listed for them, in whatever order they came.
-/

namespace HexSlab

open Vec

section Rows

variable {R : Type}

/-- Each of the rows that stand one after the other is the stretch behind those
before it. -/
theorem take_drop_flatten (rows : List (List (Nat × R))) {i : Nat} {row : List (Nat × R)}
    (found : rows[i]? = some row) :
    (rows.flatten.drop (rows.take i).flatten.length).take row.length = row := by
  induction rows generalizing i with
  | nil => cases found
  | cons first rest ih =>
    cases i with
    | zero =>
      have same : first = row := Option.some.inj found
      rw [same]
      exact List.take_left' rfl
    | succ i =>
      rw [List.take_succ_cons, List.flatten_cons, List.flatten_cons, List.length_append,
        List.drop_length_add_append]
      exact ih found

/-- In a matrix made from rows each row begins after the entries of those before it. -/
theorem Csr.getD_offsets_ofRows (colCount : Nat) (rows : List (List (Nat × R))) {place : Nat}
    (bound : place ≤ rows.length) :
    (ofRows colCount rows).offsets.getD place 0 = (rows.take place).flatten.length := by
  have known : ((rows.map List.length).scanl (· + ·) 0)[place]? =
      some (rows.take place).flatten.length := by
    rw [List.getElem?_scanl, if_pos (by rwa [List.length_map]), ← List.sum_eq_foldl_nat,
      ← List.map_take, ← List.length_flatten]
  simp only [ofRows, Array.getD_eq_getD_getElem?, List.getElem?_toArray, known, Option.getD_some]

/-- The entries up to the end of a row are those before it and its own. -/
theorem length_flatten_take_succ {rows : List (List (Nat × R))} {i : Nat}
    {row : List (Nat × R)} (found : rows[i]? = some row) :
    (rows.take (i + 1)).flatten.length = (rows.take i).flatten.length + row.length := by
  rw [List.take_add_one, found, List.flatten_append, List.length_append, Option.toList_some,
    List.flatten_singleton]

/-- A matrix made from rows has these rows. -/
theorem Csr.row_ofRows (colCount : Nat) (rows : List (List (Nat × R))) {i : Nat}
    {row : List (Nat × R)} (found : rows[i]? = some row) : (ofRows colCount rows).row i = row := by
  have inside : i < rows.length := (List.getElem?_eq_some_iff.mp found).1
  unfold Csr.row
  rw [getD_offsets_ofRows colCount rows inside.le, getD_offsets_ofRows colCount rows inside,
    length_flatten_take_succ found]
  simp only [ofRows, List.extract_toArray, List.extract_eq_take_drop, Nat.add_sub_cancel_left,
    ← List.map_drop, ← List.map_take, take_drop_flatten rows found]
  rw [List.zip_map', List.map_id']

/-- Listed by their rows, the entries of a row are the part with its number. -/
theorem filter_flatten {α : Type} {parts : List (List α)} {key : α → Nat} {start : Nat}
    (own : ∀ i part, parts[i]? = some part → ∀ a ∈ part, key a = start + i) {i : Nat}
    {part : List α} (found : parts[i]? = some part) :
    (parts.flatten.filter fun a => key a == start + i) = part := by
  induction parts generalizing start i with
  | nil => cases found
  | cons first rest ih =>
    have shift (j : Nat) : start + 1 + j = start + (j + 1) := by omega
    have here : ∀ a ∈ first, key a = start := own 0 first rfl
    have later : ∀ j part, rest[j]? = some part → ∀ a ∈ part, key a = start + 1 + j := by
      intro j part entry a member
      rw [shift]
      exact own (j + 1) part entry a member
    rw [List.flatten_cons, List.filter_append]
    cases i with
    | zero =>
      have same : first = part := Option.some.inj found
      have none : (rest.flatten.filter fun a => key a == start + 0) = [] := by
        rw [List.filter_eq_nil_iff]
        intro a member
        obtain ⟨part, inside, member⟩ := List.mem_flatten.mp member
        obtain ⟨j, entry⟩ := List.getElem?_of_mem inside
        rw [later j part entry a member, beq_iff_eq]
        omega
      have all : (first.filter fun a => key a == start + 0) = first := by
        rw [List.filter_eq_self]
        intro a member
        rw [here a member, Nat.add_zero]
        exact beq_self_eq_true start
      rw [none, all, List.append_nil, same]
    | succ i =>
      have none : (first.filter fun a => key a == start + (i + 1)) = [] := by
        rw [List.filter_eq_nil_iff]
        intro a member
        rw [here a member, beq_iff_eq]
        omega
      have rest := ih later found
      rw [shift] at rest
      rw [none, List.nil_append]
      exact rest

/-- There is a row for each row that the triplets have. -/
theorem Triplets.size_rows [Scalar R] (triplets : Triplets R) :
    triplets.rows.size = triplets.rowCount := by
  have kept (entries : List (Nat × Nat × R)) (rows : Array (List (Nat × R))) :
      (entries.foldl place rows).size = rows.size := by
    induction entries generalizing rows with
    | nil => rfl
    | cons entry rest ih => rw [List.foldl_cons, ih, place, Array.size_modify]
  rw [Triplets.rows, kept, Array.size_replicate]

/-- A row after a triplet was placed. -/
theorem Triplets.getD_place [Scalar R] (rows : Array (List (Nat × R)))
    (entry : Nat × Nat × R) {i : Nat} (inside : i < rows.size) :
    (place rows entry).getD i [] =
      if entry.1 = i then addToRow entry.2.1 entry.2.2 (rows.getD i [])
      else rows.getD i [] := by
  have bound : i < (place rows entry).size := by
    rw [place, Array.size_modify]
    exact inside
  rw [Array.getD_eq_getD_getElem?, Array.getElem?_eq_getElem bound, Array.getD_eq_getD_getElem?,
    Array.getElem?_eq_getElem inside, Option.getD_some, Option.getD_some]
  exact Array.getElem_modify bound

/-- A matrix made from triplets has the rows that the triplets add up to. -/
theorem Triplets.row_toCsr [Scalar R] (triplets : Triplets R) {i : Nat}
    (inside : i < triplets.rowCount) : triplets.toCsr.row i = triplets.rows.getD i [] := by
  have size : i < triplets.rows.size := by
    rw [triplets.size_rows]
    exact inside
  have found : triplets.rows.toList[i]? = some (triplets.rows.getD i []) := by
    rw [Array.getElem?_toList, Array.getD_eq_getD_getElem?, Array.getElem?_eq_getElem size,
      Option.getD_some]
  exact Csr.row_ofRows triplets.colCount triplets.rows.toList found

/-- Placing triplets adds those that were listed for a row to the row, one after the
other. -/
theorem Triplets.getD_foldl_place [Scalar R] (entries : List (Nat × Nat × R))
    (rows : Array (List (Nat × R))) {i : Nat} (inside : i < rows.size) :
    (entries.foldl place rows).getD i [] = ((entries.filter fun e => e.1 == i).map (·.2)).foldl
      (fun row entry => addToRow entry.1 entry.2 row) (rows.getD i []) := by
  induction entries generalizing rows with
  | nil => rfl
  | cons entry rest ih =>
    have bound : i < (place rows entry).size := by
      rw [place, Array.size_modify]
      exact inside
    rw [List.foldl_cons, ih _ bound, getD_place rows entry inside, List.filter_cons]
    by_cases own : entry.1 = i
    · rw [if_pos own, if_pos (beq_iff_eq.mpr own), List.map_cons, List.foldl_cons]
    · rw [if_neg own, if_neg fun same => own (beq_iff_eq.mp same)]

/-- A row of a matrix made from triplets is what those listed for it add up to. -/
theorem Triplets.row_toCsr_eq_foldl [Scalar R] (triplets : Triplets R) {i : Nat}
    (inside : i < triplets.rowCount) :
    triplets.toCsr.row i = ((triplets.entries.filter fun e => e.1 == i).map (·.2)).foldl
      (fun row entry => addToRow entry.1 entry.2 row) [] := by
  have bound : i < (Array.replicate triplets.rowCount ([] : List (Nat × R))).size := by
    rw [Array.size_replicate]
    exact inside
  have empty : (Array.replicate triplets.rowCount ([] : List (Nat × R))).getD i [] = [] := by
    rw [Array.getD_eq_getD_getElem?, Array.getElem?_replicate, if_pos inside, Option.getD_some]
  rw [triplets.row_toCsr inside, rows, getD_foldl_place _ _ bound, empty]

/-- A matrix made from triplets has as many rows as they have. -/
theorem Triplets.rowCount_toCsr [Scalar R] (triplets : Triplets R) :
    triplets.toCsr.rowCount = triplets.rowCount := by
  show triplets.rows.toList.length = triplets.rowCount
  rw [Array.length_toList, triplets.size_rows]

end Rows

variable {R : Type} [Field R] {n : Nat}

namespace Vec

/-- The value at a place, zero beyond the last. -/
def valueAt (place : Nat) : (Fin n → R) →ₗ[R] R :=
  if inside : place < n then LinearMap.proj ⟨place, inside⟩ else 0

/-- The value at a place that a vector has. -/
theorem valueAt_of_lt {place : Nat} (inside : place < n) (v : Fin n → R) :
    valueAt place v = v ⟨place, inside⟩ := by
  rw [valueAt, dif_pos inside]
  rfl

/-- The value at a place that a vector has not. -/
theorem valueAt_of_le {place : Nat} (beyond : n ≤ place) (v : Fin n → R) :
    valueAt place v = 0 := by
  rw [valueAt, dif_neg (Nat.not_lt.mpr beyond)]
  rfl

/-- Reading an array of entries, with zero beyond the last. -/
theorem getD_toArray (x : Vector R n) (place : Nat) :
    x.toArray.getD place 0 = valueAt place (entries x) := by
  rw [Array.getD_eq_getD_getElem?]
  by_cases inside : place < n
  · rw [Vector.getElem?_toArray, Vector.getElem?_eq_getElem inside, valueAt_of_lt inside]
    rfl
  · rw [Vector.getElem?_toArray, Vector.getElem?_eq_none (Nat.le_of_not_lt inside),
      valueAt_of_le (Nat.le_of_not_lt inside)]
    rfl

end Vec

namespace Csr

/-- The linear form of a row: each value times that of a vector at its column. -/
def rowForm : List (Nat × R) → (Fin n → R) →ₗ[R] R
  | [] => 0
  | entry :: rest => entry.2 • valueAt entry.1 + rowForm rest

/-- The form of a row on a vector, entry by entry. -/
theorem rowForm_cons (entry : Nat × R) (rest : List (Nat × R)) (v : Fin n → R) :
    rowForm (entry :: rest) v = entry.2 * valueAt entry.1 v + rowForm rest v := rfl

/-- The map of a matrix: the form of each row. -/
def action (matrix : Csr R) : (Fin matrix.rowCount → R) →ₗ[R] (Fin matrix.rowCount → R) :=
  LinearMap.pi fun i => rowForm (matrix.row i)

/-- The image of a vector, row by row. -/
theorem action_apply (matrix : Csr R) (v : Fin matrix.rowCount → R) (i : Fin matrix.rowCount) :
    matrix.action v i = rowForm (matrix.row i) v := rfl

section Scalars

variable [LinearOrder R] [Roots R]

/-- The product of a row with a vector is its form on the entries. -/
theorem rowProduct_eq (row : List (Nat × R)) (x : Vector R n) :
    rowProduct row x.toArray = rowForm row (entries x) := by
  have fold (start : R) :
      row.foldl (fun sum entry => sum + entry.2 * x.toArray.getD entry.1 0) start =
        start + rowForm row (entries x) := by
    induction row generalizing start with
    | nil => exact (add_zero start).symm
    | cons entry rest ih => rw [List.foldl_cons, ih, rowForm_cons, getD_toArray, add_assoc]
  exact (fold 0).trans (zero_add _)

/-- The product with a matrix is its map on the entries. -/
theorem entries_product (matrix : Csr R) (x : Vector R matrix.rowCount) :
    entries (matrix.product x.toArray) = matrix.action (entries x) := by
  rw [product, entries_ofFn]
  funext i
  rw [action_apply, rowProduct_eq]

/-- A square matrix can be multiplied with every vector that has an entry for
each row. -/
theorem productChecked_eq (matrix : Csr R) (square : matrix.rowCount = matrix.colCount)
    (x : Vector R matrix.rowCount) :
    matrix.productChecked x.toArray matrix.rowCount = .ok (matrix.product x.toArray) := by
  have fits : ¬x.toArray.size ≠ matrix.colCount := by
    rw [x.size_toArray]
    exact not_not_intro square
  rw [productChecked, if_neg fits, if_neg (not_not_intro rfl)]

/-- A square matrix without a limit of calls is an operator that never fails and
acts as the map of the matrix. -/
theorem realizes_operator (matrix : Csr R) (square : matrix.rowCount = matrix.colCount)
    (comm : Communicator R) : (matrix.operator comm none).Realizes matrix.action := by
  intro x calls
  refine ⟨matrix.product x.toArray, calls + 1, ?_, matrix.entries_product x⟩
  show (matrix.productChecked x.toArray matrix.rowCount, calls + 1) = _
  rw [matrix.productChecked_eq square]

/-- Adding a value to a row adds its term to the form. -/
theorem rowForm_addToRow (column : Nat) (value : R) (row : List (Nat × R)) (v : Fin n → R) :
    rowForm (Triplets.addToRow column value row) v =
      value * valueAt column v + rowForm row v := by
  induction row with
  | nil => rfl
  | cons entry rest ih =>
    unfold Triplets.addToRow
    split
    · rfl
    · split
      · rename_i same
        rw [rowForm_cons, rowForm_cons, same]
        ring
      · rw [rowForm_cons, ih, rowForm_cons]
        ring

/-- Adding values to a row one after the other adds their terms to the form. -/
theorem rowForm_foldl_addToRow (added row : List (Nat × R)) (v : Fin n → R) :
    rowForm (added.foldl (fun row entry => Triplets.addToRow entry.1 entry.2 row) row) v =
      rowForm added v + rowForm row v := by
  induction added generalizing row with
  | nil => exact (zero_add _).symm
  | cons entry rest ih =>
    rw [List.foldl_cons, ih, rowForm_addToRow, rowForm_cons]
    ring

/-- The form of a row of a matrix made from triplets is that of the triplets
that were listed for the row. -/
theorem rowForm_toCsr (triplets : Triplets R) {i : Nat} (inside : i < triplets.rowCount)
    (v : Fin n → R) :
    rowForm (triplets.toCsr.row i) v =
      rowForm ((triplets.entries.filter fun e => e.1 == i).map (·.2)) v := by
  rw [triplets.row_toCsr_eq_foldl inside, rowForm_foldl_addToRow]
  exact add_zero _

end Scalars

end Csr

end HexSlab

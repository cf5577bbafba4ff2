import HexSlab.Proofs.Krylov.OrthonormalBasis
import Mathlib.Algebra.Module.BigOperators
import Mathlib.Data.List.GetD

/-!
# Back substitution

A triangular matrix is kept by its columns, each with one entry more than the
one before. Solving from the last row upwards keeps all later rows solved, and
leaves a solution of every row. The combination of the columns with the solution
is the right-hand side, in whatever frame the entries are read.
-/

namespace HexSlab.MinimalResiduals

variable {R : Type} [Field R] [LinearOrder R] [Roots R] {n : Nat}

/-- The columns of a triangular matrix without a zero on its diagonal. -/
structure IsTriangular (columns : List (List R)) : Prop where
  /-- A column ends at the diagonal. -/
  length : ∀ column < columns.length, (columns.getD column []).length = column + 1
  /-- No entry of the diagonal is zero. -/
  diagonal : ∀ column < columns.length, entryAt columns column column ≠ 0

/-- An entry of a matrix with a further column. -/
theorem entryAt_concat (columns : List (List R)) (last : List R) (row column : Nat)
    (old : column < columns.length) :
    entryAt (columns ++ [last]) row column = entryAt columns row column := by
  rw [entryAt, entryAt, List.getD_append _ _ _ _ old]

/-- A matrix without columns is triangular. -/
theorem isTriangular_nil : IsTriangular ([] : List (List R)) where
  length := fun _ none => absurd none (Nat.not_lt_zero _)
  diagonal := fun _ none => absurd none (Nat.not_lt_zero _)

/-- A further column that ends at the diagonal. -/
theorem IsTriangular.concat {columns : List (List R)} (triangular : IsTriangular columns)
    {above : List R} {corner : R} (reach : above.length = columns.length) (nonzero : corner ≠ 0) :
    IsTriangular (columns ++ [above ++ [corner]]) where
  length := by
    intro column inside
    by_cases old : column < columns.length
    · rw [List.getD_append _ _ _ _ old]
      exact triangular.length column old
    · rw [List.length_append, List.length_singleton] at inside
      have new : column = columns.length := by omega
      rw [new, List.getD_append_right _ _ _ _ le_rfl, Nat.sub_self, List.getD_cons_zero,
        List.length_append, List.length_singleton, reach]
  diagonal := by
    intro column inside
    by_cases old : column < columns.length
    · rw [entryAt_concat columns _ _ _ old]
      exact triangular.diagonal column old
    · rw [List.length_append, List.length_singleton] at inside
      have new : column = columns.length := by omega
      rw [entryAt, new, List.getD_append_right _ _ _ _ le_rfl, Nat.sub_self, List.getD_cons_zero,
        List.getD_append_right _ _ _ _ reach.le, reach, Nat.sub_self, List.getD_cons_zero]
      exact nonzero

/-- No column has more entries than there are columns. -/
theorem IsTriangular.length_le {columns : List (List R)} (triangular : IsTriangular columns) :
    ∀ column ∈ columns, column.length ≤ columns.length := by
  intro column member
  obtain ⟨j, inside, found⟩ := List.getElem_of_mem member
  have reach := triangular.length j inside
  rw [List.getD_eq_getElem _ _ inside, found] at reach
  rw [reach]
  exact inside

/-- Under the diagonal there are zeros. -/
theorem IsTriangular.entryAt_eq_zero {columns : List (List R)} (triangular : IsTriangular columns)
    {row column : Nat} (under : column < row) : entryAt columns row column = 0 := by
  have short : (columns.getD column []).length ≤ row := by
    by_cases inside : column < columns.length
    · rw [triangular.length column inside]
      exact under
    · rw [List.getD_eq_default _ _ (Nat.le_of_not_lt inside)]
      exact Nat.zero_le row
  exact List.getD_eq_default _ _ short

/-- The part of a row that is known from the later rows, as a sum. -/
theorem known_eq_sum (columns : List (List R)) (row start : Nat) (solved : List R) (sum : R) :
    (solved.zipIdx start).foldl (fun sum later => sum + entryAt columns row later.2 * later.1) sum =
      sum + ∑ j ∈ Finset.range solved.length,
        entryAt columns row (start + j) * solved.getD j 0 := by
  induction solved generalizing start sum with
  | nil => simp only [List.zipIdx_nil, List.foldl_nil, List.length_nil, Finset.range_zero,
      Finset.sum_empty, add_zero]
  | cons first solved ih =>
    have shift (j : Nat) : start + 1 + j = start + (j + 1) := by omega
    rw [List.zipIdx_cons, List.foldl_cons, ih, List.length_cons, Finset.sum_range_succ']
    simp only [List.getD_cons_succ, List.getD_cons_zero, Nat.add_zero, shift]
    ring

/-- Values for the rows from some row on solve these rows. -/
def Solves (columns : List (List R)) (rhs : List R) (start : Nat) (solved : List R) : Prop :=
  ∀ row, start ≤ row → row < start + solved.length →
    ∑ j ∈ Finset.range solved.length, entryAt columns row (start + j) * solved.getD j 0 =
      rhs.getD row 0

/-- The value that a row asks for solves it, and leaves the later rows solved. -/
theorem Solves.cons {columns : List (List R)} (triangular : IsTriangular columns) {rhs : List R}
    {row : Nat} {solved : List R} (later : Solves columns rhs (row + 1) solved) {value : R}
    (asked : entryAt columns row row * value + ∑ j ∈ Finset.range solved.length,
      entryAt columns row (row + 1 + j) * solved.getD j 0 = rhs.getD row 0) :
    Solves columns rhs row (value :: solved) := by
  intro other above below
  have shift (j : Nat) : row + 1 + j = row + (j + 1) := by omega
  rw [List.length_cons] at below
  rw [List.length_cons, Finset.sum_range_succ']
  simp only [List.getD_cons_succ, List.getD_cons_zero, Nat.add_zero]
  by_cases same : other = row
  · simp only [shift] at asked
    rw [same, add_comm]
    exact asked
  · have under : row < other := by omega
    have solved := later other (by omega) (by omega)
    simp only [shift] at solved
    rw [triangular.entryAt_eq_zero under, zero_mul, add_zero]
    exact solved

/-- Back substitution solves all rows, given a solution of the later ones. -/
theorem backSubstitute_solves {columns : List (List R)} (triangular : IsTriangular columns)
    (rhs : List R) (row : Nat) (solved : List R) (inside : row ≤ columns.length)
    (later : Solves columns rhs row solved) :
    (backSubstitute columns rhs row solved).length = row + solved.length ∧
      Solves columns rhs 0 (backSubstitute columns rhs row solved) := by
  induction row generalizing solved with
  | zero => exact ⟨(Nat.zero_add _).symm, later⟩
  | succ row ih =>
    rw [backSubstitute, known_eq_sum, zero_add]
    have nonzero := triangular.diagonal row inside
    generalize value_eq : (rhs.getD row 0 - ∑ j ∈ Finset.range solved.length,
      entryAt columns row (row + 1 + j) * solved.getD j 0) / entryAt columns row row = value
    have asked : entryAt columns row row * value + ∑ j ∈ Finset.range solved.length,
        entryAt columns row (row + 1 + j) * solved.getD j 0 = rhs.getD row 0 := by
      rw [← value_eq, mul_div_cancel₀ _ nonzero, sub_add_cancel]
    have result := ih (value :: solved) (Nat.le_of_succ_le inside) (later.cons triangular asked)
    rw [List.length_cons] at result
    exact ⟨by omega, result.2⟩

/-- The combination of the columns with a solution is the right-hand side. -/
theorem combine_columns {columns : List (List R)} {rhs solved : List R}
    (solves : Solves columns rhs 0 solved) (same : solved.length = columns.length)
    (frame : List (Fin n → R)) (square : frame.length = columns.length) :
    combine solved (columns.map fun column => combine column frame) = combine rhs frame := by
  have row (i : Nat) (inside : i ∈ Finset.range frame.length) :
      ∑ j ∈ Finset.range columns.length, solved.getD j 0 * entryAt columns i j =
        rhs.getD i 0 := by
    have below : i < 0 + solved.length := by
      rw [Finset.mem_range] at inside
      omega
    rw [← solves i (Nat.zero_le i) below, same]
    simp only [Nat.zero_add, mul_comm]
  have column (j : Nat) : (columns.map fun column => combine column frame).getD j 0 =
      ∑ i ∈ Finset.range frame.length, entryAt columns i j • frame.getD i 0 := by
    rw [← combine_nil frame, List.getD_map, combine_eq_sum]
    rfl
  calc combine solved (columns.map fun column => combine column frame)
      = ∑ j ∈ Finset.range columns.length,
          solved.getD j 0 • ∑ i ∈ Finset.range frame.length,
            entryAt columns i j • frame.getD i 0 := by
        rw [combine_eq_sum, List.length_map]
        exact Finset.sum_congr rfl fun j _ => by rw [column]
    _ = ∑ i ∈ Finset.range frame.length,
          (∑ j ∈ Finset.range columns.length, solved.getD j 0 * entryAt columns i j) •
            frame.getD i 0 := by
        simp only [Finset.smul_sum, Finset.sum_smul, smul_smul]
        exact Finset.sum_comm
    _ = combine rhs frame := by
        rw [combine_eq_sum]
        exact Finset.sum_congr rfl fun i inside => by rw [row i inside]

/-- Back substitution finds a combination of the columns for every right-hand side. -/
theorem IsTriangular.combine_backSubstitute {columns : List (List R)}
    (triangular : IsTriangular columns) (rhs : List R) (frame : List (Fin n → R))
    (square : frame.length = columns.length) :
    combine (backSubstitute columns rhs columns.length [])
        (columns.map fun column => combine column frame) = combine rhs frame := by
  have none : Solves columns rhs columns.length [] := by
    intro row above below
    rw [List.length_nil] at below
    omega
  obtain ⟨size, solves⟩ :=
    backSubstitute_solves triangular rhs columns.length [] le_rfl none
  exact combine_columns solves size frame square

end HexSlab.MinimalResiduals

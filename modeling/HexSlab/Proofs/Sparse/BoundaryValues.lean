import HexSlab.Proofs.Sparse.MinimumPrinciple

/-!
# Boundary value problems are solved by one vector

Constraining rows of the Laplacian turns them into rows of the identity, which
say what the values there are; the other rows stay. By the minimum principle an
image that is nowhere negative comes from a vector that is nowhere negative,
whichever rows are constrained. So only zero is taken to zero, and a system with
the constrained matrix has one solution, with the values that were prescribed.
-/

namespace HexSlab

open Vec

namespace Csr

section Constrain

variable {R : Type} [Scalar R]

/-- A square matrix with constrained rows, row by row. -/
theorem constrainRows_eq_some {matrix constrained : Csr R} {set : NodeSet}
    (made : matrix.constrainRows set = some constrained) :
    constrained.rowCount = matrix.rowCount ∧ constrained.colCount = matrix.colCount ∧
      ∀ i < matrix.rowCount, constrained.row i = matrix.constrainRow set i := by
  unfold constrainRows at made
  split at made
  · rw [← Option.some.inj made]
    refine ⟨?_, rfl, ?_⟩
    · show ((List.range matrix.rowCount).map (matrix.constrainRow set)).length = matrix.rowCount
      rw [List.length_map, List.length_range]
    · intro i inside
      apply row_ofRows
      rw [List.getElem?_map, List.getElem?_range inside]
      rfl
  · cases made

end Constrain

variable {R : Type} [Field R] [LinearOrder R] [Roots R]

/-- The form of a constrained row. -/
theorem rowForm_constrainRow {n : Nat} (matrix : Csr R) (set : NodeSet) (i : Nat)
    (v : Fin n → R) :
    rowForm (matrix.constrainRow set i) v =
      if set.contains i = true then valueAt i v else rowForm (matrix.row i) v := by
  unfold constrainRow
  split
  · rw [rowForm_cons]
    exact (add_zero _).trans (one_mul _)
  · rfl

/-- What makes boundary value problems with a matrix solvable, whose rows in a
set prescribe the values there. -/
structure SolvesBoundaryValues (matrix : Csr R) (set : NodeSet) : Prop where
  /-- Every vector with an entry for each row has a product. -/
  applies : ∀ x : Vector R matrix.rowCount,
    matrix.productChecked x.toArray matrix.rowCount = .ok (matrix.product x.toArray)
  /-- A vector whose product is nowhere negative is nowhere negative. -/
  inverse_monotone : ∀ x : Vector R matrix.rowCount,
    (∀ i, 0 ≤ entries (matrix.product x.toArray) i) → ∀ i, 0 ≤ entries x i
  /-- Only the zero vector has the product zero. -/
  kernel : ∀ x : Vector R matrix.rowCount, matrix.product x.toArray = fill 0 → x = fill 0
  /-- Every right-hand side is the product of one vector. -/
  solution : ∀ b : Vector R matrix.rowCount, ∃! x : Vector R matrix.rowCount,
    matrix.product x.toArray = b
  /-- That vector has the values that are prescribed. -/
  prescribed : ∀ x b : Vector R matrix.rowCount, matrix.product x.toArray = b →
    ∀ i : Fin matrix.rowCount, set.contains i = true → x[i] = b[i]

/-- A square matrix with an inverse that is monotone, and with rows that
prescribe values. -/
theorem solvesBoundaryValues_of_monotone [IsStrictOrderedRing R] {matrix : Csr R} {set : NodeSet}
    (square : matrix.rowCount = matrix.colCount)
    (monotone : ∀ v, (∀ i, 0 ≤ matrix.action v i) → ∀ i, 0 ≤ v i)
    (rows : ∀ v (i : Fin matrix.rowCount), set.contains i = true → matrix.action v i = v i) :
    matrix.SolvesBoundaryValues set := by
  -- a vector that is taken to zero is not negative, and neither is its negation
  have injective : Function.Injective matrix.action := by
    rw [injective_iff_map_eq_zero]
    intro v gone
    have nonneg := monotone v fun i => (congrFun gone i).ge
    have nonpos := monotone (-v) fun i => by
      rw [map_neg, gone, neg_zero]
      exact le_rfl
    funext i
    exact le_antisymm (neg_nonneg.mp (nonpos i)) (nonneg i)
  have solves (x b : Vector R matrix.rowCount) :
      matrix.product x.toArray = b ↔ matrix.action (entries x) = entries b := by
    rw [← entries_product, entries_inj]
  constructor
  case applies => exact matrix.productChecked_eq square
  case inverse_monotone =>
    intro x nonneg
    rw [entries_product] at nonneg
    exact monotone _ nonneg
  case kernel =>
    intro x gone
    rw [solves, entries_zero] at gone
    rw [← entries_inj, entries_zero]
    exact injective (gone.trans (map_zero matrix.action).symm)
  case solution =>
    intro b
    obtain ⟨v, reached⟩ := LinearMap.injective_iff_surjective.mp injective (entries b)
    refine ⟨Vector.ofFn v, ?_, ?_⟩
    · show matrix.product (Vector.ofFn v).toArray = b
      rw [solves, entries_ofFn, reached]
    · intro other same
      have image := (solves other b).mp same
      rw [← entries_inj, entries_ofFn]
      exact injective (image.trans reached.symm)
  case prescribed =>
    intro x b same i fixed
    have image := (solves x b).mp same
    have entry := congrFun image i
    rw [rows _ i fixed] at entry
    exact entry

end Csr

variable {R : Type} [Field R] [LinearOrder R] [IsStrictOrderedRing R] [Roots R]

/-- A vector whose image under a Laplacian with constrained rows is nowhere
negative is nowhere negative. -/
theorem Extents.constrained_monotone (extents : Extents) (set : NodeSet) {constrained : Csr R}
    (made : extents.laplacianTriplets.toCsr.constrainRows set = some constrained)
    (v : Fin constrained.rowCount → R) (nonneg : ∀ i, 0 ≤ constrained.action v i) :
    ∀ i, 0 ≤ v i := by
  obtain ⟨count, -, rows⟩ := Csr.constrainRows_eq_some made
  have size : constrained.rowCount = extents.x * extents.y * extents.z := by
    rw [count, Triplets.rowCount_toCsr]
    rfl
  intro i
  have inside : i.val < extents.x * extents.y * extents.z := by
    rw [← size]
    exact i.isLt
  rw [← valueAt_of_lt i.isLt v]
  refine extents.nonneg_of_neighbours (fun place => valueAt place v) ?_ inside
  intro i insideX j insideY k insideZ
  have bound := extents.place_lt insideX insideY insideZ
  have row : 0 ≤ Csr.rowForm (constrained.row (extents.place i j k)) v :=
    nonneg ⟨extents.place i j k, size ▸ bound⟩
  rw [rows _ (by rw [Triplets.rowCount_toCsr]; exact bound), Csr.rowForm_constrainRow] at row
  split at row
  · exact Or.inl row
  · rw [extents.rowForm_laplacian insideX insideY insideZ] at row
    exact Or.inr (sub_nonneg.mp row)

/-- Boundary value problems with the Laplacian are solvable. For every mesh and
process and every set of nodes, in every ordered field: the Laplacian with the
rows of the set constrained has a row for each node of the process, a vector
whose product with it is nowhere negative is nowhere negative, only the zero
vector has the product zero, and for every right-hand side there is one vector
with that product, which has the values that are prescribed in the set. -/
theorem constrained_laplacian_inverse_monotone (R : Type) [Field R] [LinearOrder R]
    [IsStrictOrderedRing R] [Roots R] {S : Type} (mesh : Mesh S) (set : NodeSet) :
    ∃ constrained : Csr R, (mesh.laplacian : Csr R).constrainRows set = some constrained ∧
      constrained.rowCount = mesh.ownNodeCount ∧ constrained.SolvesBoundaryValues set := by
  have square : (mesh.laplacian : Csr R).rowCount = (mesh.laplacian : Csr R).colCount :=
    Triplets.rowCount_toCsr _
  obtain ⟨constrained, made⟩ : ∃ constrained,
      (mesh.laplacian : Csr R).constrainRows set = some constrained := by
    rw [Csr.constrainRows, if_pos square]
    exact ⟨_, rfl⟩
  obtain ⟨count, width, rows⟩ := Csr.constrainRows_eq_some made
  refine ⟨constrained, made, count.trans (Triplets.rowCount_toCsr _), ?_⟩
  refine Csr.solvesBoundaryValues_of_monotone (by rw [count, width, square])
    (mesh.slabExtents.constrained_monotone set made) ?_
  intro v i fixed
  rw [Csr.action_apply, rows i (by rw [← count]; exact i.isLt), Csr.rowForm_constrainRow,
    if_pos fixed]
  exact valueAt_of_lt i.isLt v

/-- Rational boundary values on one hexahedron, prescribed at two of its nodes. -/
theorem constrained_laplacian_inverse_monotone_hexahedron :
    ∃ constrained : Csr Rat,
      ((Mesh.unit 1 1 1 .serial : Mesh Rat).laplacian : Csr Rat).constrainRows
          ⟨#[true, false, false, true]⟩ = some constrained ∧
        constrained.rowCount = 8 ∧
        constrained.SolvesBoundaryValues ⟨#[true, false, false, true]⟩ :=
  constrained_laplacian_inverse_monotone Rat (Mesh.unit 1 1 1 .serial : Mesh Rat)
    ⟨#[true, false, false, true]⟩

end HexSlab

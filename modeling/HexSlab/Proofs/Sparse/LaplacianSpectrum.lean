import HexSlab.Proofs.Sparse.LatticeEnergy

/-!
# The spectrum of the Laplacian

The Laplacian of a lattice is a valid matrix, and its inner products are couplings of
functions on the lattice. So it is symmetric, its energies are positive, and they stay
below twelve times the sum of squares. Its diagonal is six throughout, which puts the
eigenvalues of the scaled Laplacian strictly between zero and two.
-/

namespace HexSlab

open Vec

variable {R : Type} [Field R] [LinearOrder R] [Roots R]

namespace Csr

/-- A valid square matrix is symmetric if its map may be moved from one side of an inner
product to the other. -/
theorem symmetric_of_action {matrix : Csr R} (valid : matrix.Valid)
    (square : matrix.rowCount = matrix.colCount)
    (moves : ∀ u v : Fin matrix.rowCount → R, matrix.action u ⬝ᵥ v = u ⬝ᵥ matrix.action v) :
    matrix.Symmetric where
  valid := valid
  square := square
  symmetric := by
    refine Matrix.IsSymm.ext fun i j => ?_
    have entry := moves (Pi.single i 1) (Pi.single j 1)
    rw [dotProduct_single_one, single_one_dotProduct, valid.action_single square,
      valid.action_single square] at entry
    exact entry

/-- The diagonal of a valid square matrix, as its map reads it off. -/
theorem Valid.diagonal_eq_action {matrix : Csr R} (valid : matrix.Valid)
    (square : matrix.rowCount = matrix.colCount) (i : Fin matrix.rowCount) :
    matrix.diagonal[i] = matrix.action (Pi.single i 1) i := by
  rw [valid.action_single square]
  exact Vector.getElem_ofFn i.isLt

/-- A symmetric matrix whose energies are positive and below a multiple of the sum of
squares. -/
structure EnergyBelow (matrix : Csr R) (bound : R) : Prop where
  /-- The matrix is valid, square and equal to its transpose. -/
  symmetric : matrix.Symmetric
  /-- Every vector with an entry for each row has a product. -/
  applies : ∀ x : Vector R matrix.rowCount,
    matrix.productChecked x.toArray matrix.rowCount = .ok (matrix.product x.toArray)
  /-- The energy of every vector but zero is positive. -/
  positive : ∀ x : Vector R matrix.rowCount, x ≠ fill 0 → 0 < dot x (matrix.product x.toArray)
  /-- The energy of every vector but zero is less than so many times its square. -/
  below : ∀ x : Vector R matrix.rowCount, x ≠ fill 0 →
    dot x (matrix.product x.toArray) < bound * dot x x

end Csr

namespace Extents

/-- All entries of the Laplacian lie in the matrix. -/
theorem inRange_laplacianTriplets {R : Type} [Scalar R] (extents : Extents) :
    (extents.laplacianTriplets : Triplets R).InRange := by
  intro entry listed
  obtain ⟨stencil, placed, member⟩ := List.mem_flatten.mp listed
  obtain ⟨k, insideZ, j, insideY, i, insideX, rfl⟩ := mem_grid3.mp placed
  have own := extents.place_lt insideX insideY insideZ
  rcases List.mem_cons.mp member with rfl | neighbour
  · exact ⟨own, own⟩
  · obtain ⟨column, near, rfl⟩ := List.mem_map.mp neighbour
    exact ⟨own, extents.lt_of_mem_neighbours insideX insideY insideZ near⟩

/-- The Laplacian has a row for each place of the lattice. -/
theorem rowCount_laplacian {R : Type} [Scalar R] (extents : Extents) :
    (extents.laplacianTriplets : Triplets R).toCsr.rowCount =
      extents.x * extents.y * extents.z :=
  Triplets.rowCount_toCsr _

/-- An inner product with the image under the Laplacian couples two functions on the
lattice. -/
theorem dotProduct_action_eq (extents : Extents)
    (u w : Fin (extents.laplacianTriplets : Triplets R).toCsr.rowCount → R) :
    u ⬝ᵥ (extents.laplacianTriplets : Triplets R).toCsr.action w =
      extents.coupling (-1) (fun p => valueAt p u) fun p => valueAt p w := by
  rw [extents.dotProduct_eq_places extents.rowCount_laplacian, coupling]
  refine Finset.sum_congr rfl fun k insideZ => Finset.sum_congr rfl fun j insideY =>
    Finset.sum_congr rfl fun i insideX => ?_
  rw [Finset.mem_range] at insideX insideY insideZ
  have inside : extents.place i j k <
      (extents.laplacianTriplets : Triplets R).toCsr.rowCount := by
    rw [rowCount_laplacian]
    exact extents.place_lt insideX insideY insideZ
  rw [valueAt_of_lt inside (Csr.action _ w), Csr.action_apply,
    extents.rowForm_laplacian insideX insideY insideZ, Nat.cast_ofNat]
  ring

/-- The Laplacian of a lattice is symmetric. -/
theorem symmetric_laplacian (extents : Extents) :
    (extents.laplacianTriplets : Triplets R).toCsr.Symmetric := by
  refine Csr.symmetric_of_action (Triplets.valid_toCsr extents.inRange_laplacianTriplets)
    extents.rowCount_laplacian fun u v => ?_
  rw [dotProduct_comm, dotProduct_action_eq, dotProduct_action_eq, coupling_comm]

/-- What is left of twelve times the sum of squares couples a function with itself, the
neighbours counting with the other sign. -/
theorem twelve_mul_sub_eq (extents : Extents)
    (v : Fin (extents.laplacianTriplets : Triplets R).toCsr.rowCount → R) :
    12 * (v ⬝ᵥ v) - v ⬝ᵥ (extents.laplacianTriplets : Triplets R).toCsr.action v =
      extents.coupling 1 (fun p => valueAt p v) fun p => valueAt p v := by
  rw [dotProduct_action_eq, extents.dotProduct_eq_places extents.rowCount_laplacian, coupling,
    coupling]
  simp only [Finset.mul_sum, ← Finset.sum_sub_distrib]
  refine Finset.sum_congr rfl fun k _ => Finset.sum_congr rfl fun j _ =>
    Finset.sum_congr rfl fun i _ => ?_
  ring

/-- A place is no neighbour of itself. -/
theorem place_ne_of_mem_neighbours (extents : Extents) {i j k q : Nat} (insideX : i < extents.x)
    (insideY : j < extents.y) (near : q ∈ extents.neighbours i j k) :
    q ≠ extents.place i j k := by
  have across (j k : Nat) : extents.place i (j + 1) k = extents.place i j k + extents.x := by
    rw [place, place]
    ring
  have up (j k : Nat) : extents.place i j (k + 1) =
      extents.place i j k + extents.x * extents.y := by
    rw [place, place]
    ring
  have layer : 0 < extents.x * extents.y :=
    Nat.mul_pos (Nat.zero_lt_of_lt insideX) (Nat.zero_lt_of_lt insideY)
  simp only [neighbours, List.mem_append, List.mem_ite_nil_right, List.mem_singleton] at near
  rcases near with ((((left | right) | front) | back) | below) | above
  · obtain ⟨i, rfl⟩ := Nat.exists_eq_succ_of_ne_zero left.1.ne'
    rw [left.2]
    exact (extents.place_lt_next i j k).ne
  · rw [right.2]
    exact (extents.place_lt_next i j k).ne'
  · obtain ⟨j, rfl⟩ := Nat.exists_eq_succ_of_ne_zero front.1.ne'
    rw [front.2, Nat.succ_sub_one, Nat.succ_eq_add_one, across]
    omega
  · rw [back.2, across]
    omega
  · obtain ⟨k, rfl⟩ := Nat.exists_eq_succ_of_ne_zero below.1.ne'
    rw [below.2, Nat.succ_sub_one, Nat.succ_eq_add_one, up]
    omega
  · rw [above.2, up]
    omega

/-- The diagonal of the Laplacian is six throughout. -/
theorem diagonal_laplacian (extents : Extents)
    (p : Fin (extents.laplacianTriplets : Triplets R).toCsr.rowCount) :
    (extents.laplacianTriplets : Triplets R).toCsr.diagonal[p] = 6 := by
  have valid := Triplets.valid_toCsr (extents.inRange_laplacianTriplets (R := R))
  have size := extents.rowCount_laplacian (R := R)
  obtain ⟨i, insideX, j, insideY, k, insideZ, here⟩ :=
    extents.exists_place (size ▸ p.isLt : p.val < extents.x * extents.y * extents.z)
  have own : valueAt (extents.place i j k) (Pi.single p (1 : R)) = 1 := by
    rw [here, valueAt_of_lt p.isLt]
    exact Pi.single_eq_same p 1
  have others : ((extents.neighbours i j k).map
      fun q => valueAt q (Pi.single p (1 : R))).sum = 0 := by
    refine List.sum_eq_zero fun a listed => ?_
    obtain ⟨q, near, rfl⟩ := List.mem_map.mp listed
    have apart := extents.place_ne_of_mem_neighbours insideX insideY near
    rw [here] at apart
    rw [valueAt_of_lt (size ▸ extents.lt_of_mem_neighbours insideX insideY insideZ near)]
    exact Pi.single_eq_of_ne (fun same => apart (congrArg Fin.val same)) 1
  rw [valid.diagonal_eq_action size, Csr.action_apply, ← here,
    extents.rowForm_laplacian insideX insideY insideZ, own, others, sub_zero, mul_one,
    Nat.cast_ofNat]

variable [IsStrictOrderedRing R]

/-- The energies of the Laplacian are positive and below twelve times the sum of
squares. -/
theorem energyBelow_laplacian (extents : Extents) :
    (extents.laplacianTriplets : Triplets R).toCsr.EnergyBelow 12 := by
  have coupled (x : Vector R (extents.laplacianTriplets : Triplets R).toCsr.rowCount)
      (nonzero : x ≠ fill 0) {sign : R} (unit : sign * sign = 1) :
      0 < extents.coupling sign (fun p => valueAt p (entries x))
        fun p => valueAt p (entries x) := by
    obtain ⟨p, some⟩ : ∃ p, entries x p ≠ 0 := by
      by_contra none
      push Not at none
      refine nonzero (entries_inj.mp ?_)
      rw [entries_zero]
      exact funext none
    refine extents.coupling_self_pos unit (p.isLt.trans_eq extents.rowCount_laplacian) ?_
    rw [valueAt_of_lt p.isLt]
    exact some
  constructor
  case symmetric => exact extents.symmetric_laplacian
  case applies => exact Csr.productChecked_eq _ extents.rowCount_laplacian
  case positive =>
    intro x nonzero
    rw [Csr.dot_product_eq, dotProduct_action_eq]
    exact coupled x nonzero (by ring)
  case below =>
    intro x nonzero
    have square : dot x x = entries x ⬝ᵥ entries x := dot_eq_sum x x
    rw [Csr.dot_product_eq, square, ← sub_pos, twelve_mul_sub_eq]
    exact coupled x nonzero (by ring)

end Extents

/-- The Laplacian is symmetric positive definite with its spectrum below twelve. For
every mesh and process, whatever its intervals and its slab, and in every ordered field:
the Laplacian has a row for each node of the process, it is valid and symmetric, the
energy of every vector but zero is positive and less than twelve times its square, and
every eigenvalue of the Laplacian scaled by its inverted diagonal lies strictly between
zero and two. -/
theorem laplacian_energy_below_twelve (R : Type) [Field R] [LinearOrder R]
    [IsStrictOrderedRing R] [Roots R] {S : Type} (mesh : Mesh S) :
    (mesh.laplacian : Csr R).rowCount = mesh.ownNodeCount ∧
      (mesh.laplacian : Csr R).EnergyBelow 12 ∧
      ∀ (x : Vector R (mesh.laplacian : Csr R).rowCount) (eigenvalue : R), x ≠ fill 0 →
        (∀ i : Fin (mesh.laplacian : Csr R).rowCount,
          1 / (mesh.laplacian : Csr R).diagonal[i] *
            ((mesh.laplacian : Csr R).product x.toArray)[i] = eigenvalue * x[i]) →
        0 < eigenvalue ∧ eigenvalue < 2 := by
  have within : (mesh.laplacian : Csr R).EnergyBelow 12 :=
    mesh.slabExtents.energyBelow_laplacian (R := R)
  refine ⟨Triplets.rowCount_toCsr _, within, ?_⟩
  intro x eigenvalue nonzero eigen
  have energy : dot x ((mesh.laplacian : Csr R).product x.toArray) =
      6 * eigenvalue * dot x x := by
    rw [dot_eq_sum, dot_eq_sum, Finset.mul_sum]
    refine Finset.sum_congr rfl fun i _ => ?_
    have entry := eigen i
    have six : (mesh.laplacian : Csr R).diagonal[i] = 6 :=
      mesh.slabExtents.diagonal_laplacian (R := R) i
    rw [six] at entry
    have image : ((mesh.laplacian : Csr R).product x.toArray)[i] = 6 * (eigenvalue * x[i]) := by
      rw [← entry]
      ring
    show x[i] * ((mesh.laplacian : Csr R).product x.toArray)[i] = _ * (x[i] * x[i])
    rw [image]
    ring
  have positive := within.positive x nonzero
  have below := within.below x nonzero
  rw [energy] at positive below
  have square : 0 < dot x x := by linarith
  constructor
  · have product : 0 < 6 * eigenvalue := (mul_pos_iff_of_pos_right square).mp positive
    linarith
  · have product : 6 * eigenvalue < 12 := lt_of_mul_lt_mul_right below square.le
    linarith

/-- Rational energies on a slab of two hexahedra. -/
theorem laplacian_energy_below_twelve_pair :
    ((Mesh.unit 2 1 1 .serial : Mesh Rat).laplacian : Csr Rat).rowCount = 12 ∧
      ((Mesh.unit 2 1 1 .serial : Mesh Rat).laplacian : Csr Rat).EnergyBelow 12 ∧
      ∀ (x : Vector Rat ((Mesh.unit 2 1 1 .serial : Mesh Rat).laplacian : Csr Rat).rowCount)
        (eigenvalue : Rat), x ≠ fill 0 →
        (∀ i : Fin ((Mesh.unit 2 1 1 .serial : Mesh Rat).laplacian : Csr Rat).rowCount,
          1 / ((Mesh.unit 2 1 1 .serial : Mesh Rat).laplacian : Csr Rat).diagonal[i] *
            (((Mesh.unit 2 1 1 .serial : Mesh Rat).laplacian : Csr Rat).product
              x.toArray)[i] = eigenvalue * x[i]) →
        0 < eigenvalue ∧ eigenvalue < 2 :=
  laplacian_energy_below_twelve Rat (Mesh.unit 2 1 1 .serial : Mesh Rat)

end HexSlab

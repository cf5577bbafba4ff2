import HexSlab.Proofs.Mesh.HexahedronFaces
import HexSlab.Proofs.Sparse.Product
import HexSlab.Sparse.Constrain
import HexSlab.Sparse.Laplacian
import Mathlib.LinearAlgebra.FiniteDimensional.Lemmas
import Mathlib.Tactic.Linarith

/-!
# The minimum principle of the lattice

A function on the places of a lattice that is nowhere below a sixth of the sum
over its neighbours, except where it is not negative, is nowhere negative. Its
least value, were it negative, would be taken by all six neighbours of a place
that has it, so by the neighbour one step down along X and so on to the edge,
where a neighbour is missing. The rows of the Laplacian say the first and
constrained rows say the second, so with any rows constrained a vector with an
image that is nowhere negative is nowhere negative itself.
-/

namespace HexSlab

namespace Extents

/-- The places of the lattice are numbered without a gap. -/
theorem place_lt (extents : Extents) {i j k : Nat} (insideX : i < extents.x)
    (insideY : j < extents.y) (insideZ : k < extents.z) :
    extents.place i j k < extents.x * extents.y * extents.z := by
  have row : k * extents.y + j + 1 ≤ extents.z * extents.y := by
    have layers : (k + 1) * extents.y ≤ extents.z * extents.y := Nat.mul_le_mul_right _ insideZ
    rw [Nat.add_mul] at layers
    omega
  have rows : (k * extents.y + j + 1) * extents.x ≤ extents.z * extents.y * extents.x :=
    Nat.mul_le_mul_right _ row
  have whole : extents.x * extents.y * extents.z = extents.z * extents.y * extents.x := by ring
  rw [Nat.add_mul] at rows
  rw [place, whole]
  omega

/-- Every number below that of all places is the number of one. -/
theorem exists_place (extents : Extents) {place : Nat}
    (inside : place < extents.x * extents.y * extents.z) :
    ∃ i < extents.x, ∃ j < extents.y, ∃ k < extents.z, extents.place i j k = place := by
  have product : 0 < extents.x * extents.y * extents.z := Nat.zero_lt_of_lt inside
  have layer : 0 < extents.x * extents.y := Nat.pos_of_mul_pos_right product
  have along : 0 < extents.x := Nat.pos_of_mul_pos_right layer
  have across : 0 < extents.y := Nat.pos_of_mul_pos_left layer
  refine ⟨place % extents.x, Nat.mod_lt _ along, place / extents.x % extents.y,
    Nat.mod_lt _ across, place / extents.x / extents.y, ?_, ?_⟩
  · rw [Nat.div_div_eq_div_mul]
    exact Nat.div_lt_of_lt_mul inside
  · rw [Extents.place, Nat.div_add_mod', Nat.div_add_mod']

/-- A place one step up along X has a larger number. -/
theorem place_lt_next (extents : Extents) (i j k : Nat) :
    extents.place i j k < extents.place (i + 1) j k := by
  rw [place, place]
  omega

/-- A place is a neighbour of the one a step up along X. -/
theorem place_mem_neighbours (extents : Extents) (i j k : Nat) :
    extents.place i j k ∈ extents.neighbours (i + 1) j k := by
  rw [neighbours, if_pos (Nat.succ_pos i), Nat.add_sub_cancel]
  simp only [List.mem_append, List.mem_singleton, true_or]

/-- The neighbours of a place are places. -/
theorem lt_of_mem_neighbours (extents : Extents) {i j k : Nat} (insideX : i < extents.x)
    (insideY : j < extents.y) (insideZ : k < extents.z) {place : Nat}
    (member : place ∈ extents.neighbours i j k) : place < extents.x * extents.y * extents.z := by
  simp only [neighbours, List.mem_append, List.mem_ite_nil_right, List.mem_singleton] at member
  rcases member with ((((left | right) | front) | back) | below) | above
  · rw [left.2]
    exact extents.place_lt (by omega) insideY insideZ
  · rw [right.2]
    exact extents.place_lt right.1 insideY insideZ
  · rw [front.2]
    exact extents.place_lt insideX (by omega) insideZ
  · rw [back.2]
    exact extents.place_lt insideX back.1 insideZ
  · rw [below.2]
    exact extents.place_lt insideX insideY (by omega)
  · rw [above.2]
    exact extents.place_lt insideX insideY above.1

/-- A place has at most one neighbour in each of six directions. -/
theorem length_neighbours_le (extents : Extents) (i j k : Nat) :
    (extents.neighbours i j k).length ≤ (if 0 < i then 1 else 0) + 5 := by
  have most (here : Prop) [Decidable here] (place : Nat) :
      (if here then [place] else []).length ≤ 1 := by
    split
    · exact le_rfl
    · exact Nat.zero_le 1
  have first : (if 0 < i then [extents.place (i - 1) j k] else []).length =
      if 0 < i then 1 else 0 := by
    split <;> rfl
  have right := most (i + 1 < extents.x) (extents.place (i + 1) j k)
  have front := most (0 < j) (extents.place i (j - 1) k)
  have back := most (j + 1 < extents.y) (extents.place i (j + 1) k)
  have below := most (0 < k) (extents.place i j (k - 1))
  have above := most (k + 1 < extents.z) (extents.place i j (k + 1))
  rw [neighbours, List.length_append, List.length_append, List.length_append, List.length_append,
    List.length_append, first]
  omega

/-- The entries that are listed at a place are those of its stencil. -/
theorem filter_laplacianTriplets {R : Type} [Scalar R] (extents : Extents) {i j k : Nat}
    (insideX : i < extents.x) (insideY : j < extents.y) (insideZ : k < extents.z) :
    ((extents.laplacianTriplets : Triplets R).entries.filter
      fun e => e.1 == extents.place i j k) = extents.stencil i j k := by
  have entry {i j k : Nat} (insideX : i < extents.x) (insideY : j < extents.y)
      (insideZ : k < extents.z) :
      (grid3 extents.z extents.y extents.x fun k j i =>
        (extents.stencil i j k : List (Nat × Nat × R)))[extents.place i j k]? =
        some (extents.stencil i j k) := by
    have index : extents.place i j k =
        k * (extents.y * extents.x) + (j * extents.x + i) := by
      rw [place]
      ring
    rw [index]
    exact getElem?_grid3 _ insideZ insideY insideX
  have own : ∀ p part, (grid3 extents.z extents.y extents.x fun k j i =>
        (extents.stencil i j k : List (Nat × Nat × R)))[p]? = some part →
      ∀ e ∈ part, e.1 = 0 + p := by
    intro p part found e member
    have bound := (List.getElem?_eq_some_iff.mp found).1
    rw [length_grid3] at bound
    have inside : p < extents.x * extents.y * extents.z := by
      have whole : extents.x * extents.y * extents.z =
          extents.z * (extents.y * extents.x) := by ring
      rw [whole]
      exact bound
    obtain ⟨i, insideX, j, insideY, k, insideZ, here⟩ := extents.exists_place inside
    rw [← here, entry insideX insideY insideZ] at found
    rw [← Option.some.inj found] at member
    rw [Nat.zero_add, ← here]
    rcases List.mem_cons.mp member with diagonal | neighbour
    · rw [diagonal]
    · obtain ⟨column, _, made⟩ := List.mem_map.mp neighbour
      rw [← made]
  have row := filter_flatten own (entry insideX insideY insideZ)
  rw [Nat.zero_add] at row
  exact row

end Extents

section Minimum

variable {R : Type} [Field R] [LinearOrder R] [IsStrictOrderedRing R]

/-- Numbers whose sum is not above as many times a negative lower bound are as
many and equal to the bound. -/
theorem eq_of_sum_le {values : List R} {least : R} {count : Nat} (negative : least < 0)
    (bound : ∀ a ∈ values, least ≤ a) (few : values.length ≤ count)
    (small : values.sum ≤ count * least) : values.length = count ∧ ∀ a ∈ values, a = least := by
  induction values generalizing count with
  | nil =>
    have none : count = 0 := by
      by_contra some
      have positive : (0 : R) < count := Nat.cast_pos.mpr (Nat.pos_of_ne_zero some)
      exact absurd small (not_le.mpr (mul_neg_of_pos_of_neg positive negative))
    refine ⟨none.symm, ?_⟩
    intro a member
    cases member
  | cons first rest ih =>
    cases count with
    | zero => cases few
    | succ count =>
      have above : least ≤ first := bound first List.mem_cons_self
      have others : ∀ a ∈ rest, least ≤ a := fun a member =>
        bound a (List.mem_cons_of_mem first member)
      rw [List.sum_cons, Nat.cast_succ, add_mul, one_mul] at small
      have smaller : rest.sum ≤ count * least := by linarith
      obtain ⟨many, equal⟩ := ih others (Nat.le_of_succ_le_succ few) smaller
      have whole : rest.sum = count * least := by
        rw [List.sum_eq_card_nsmul rest least equal, many, nsmul_eq_mul]
      have same : first = least := by linarith
      refine ⟨congrArg Nat.succ many, ?_⟩
      intro a member
      rcases List.mem_cons.mp member with here | there
      · rw [here, same]
      · exact equal a there

/-- The minimum principle: a function on the places of a lattice that is not
negative where it is below a sixth of the sum over its neighbours is not negative
anywhere. -/
theorem Extents.nonneg_of_neighbours (extents : Extents) (value : Nat → R)
    (each : ∀ i < extents.x, ∀ j < extents.y, ∀ k < extents.z,
      0 ≤ value (extents.place i j k) ∨
        ((extents.neighbours i j k).map value).sum ≤ (6 : Nat) * value (extents.place i j k))
    {place : Nat} (inside : place < extents.x * extents.y * extents.z) : 0 ≤ value place := by
  by_contra negative
  obtain ⟨lowest, member, least⟩ := Finset.exists_min_image
    (Finset.range (extents.x * extents.y * extents.z)) value ⟨place, Finset.mem_range.mpr inside⟩
  have below : value lowest < 0 :=
    (least place (Finset.mem_range.mpr inside)).trans_lt (not_le.mp negative)
  -- no place has the least value, by induction on its number: the place one step down along X
  -- would have it too, and at the edge there is none
  have never (p : Nat) (bound : p < extents.x * extents.y * extents.z) :
      value p ≠ value lowest := by
    induction p using Nat.strong_induction_on with
    | _ p ih =>
      intro same
      obtain ⟨i, insideX, j, insideY, k, insideZ, here⟩ := extents.exists_place bound
      rcases each i insideX j insideY k insideZ with nonneg | small
      · rw [here, same] at nonneg
        exact absurd below (not_lt.mpr nonneg)
      rw [here, same] at small
      have above : ∀ a ∈ (extents.neighbours i j k).map value, value lowest ≤ a := by
        intro a listed
        obtain ⟨q, near, rfl⟩ := List.mem_map.mp listed
        have inside := extents.lt_of_mem_neighbours insideX insideY insideZ near
        exact least q (Finset.mem_range.mpr inside)
      have few := extents.length_neighbours_le i j k
      have most : ((extents.neighbours i j k).map value).length ≤ 6 := by
        rw [List.length_map]
        split at few <;> omega
      obtain ⟨six, equal⟩ := eq_of_sum_le below above most small
      rw [List.length_map] at six
      cases i with
      | zero =>
        rw [if_neg (Nat.lt_irrefl 0)] at few
        omega
      | succ i =>
        have near := extents.place_mem_neighbours i j k
        have smaller : extents.place i j k < p := by
          rw [← here]
          exact extents.place_lt_next i j k
        exact ih _ smaller (smaller.trans bound) (equal _ (List.mem_map_of_mem near))
  exact never lowest (Finset.mem_range.mp member) rfl

end Minimum

open Vec

variable {R : Type} [Field R] {n : Nat}

/-- The form of a row with minus one at each of some columns. -/
theorem Csr.rowForm_neg_one (columns : List Nat) (v : Fin n → R) :
    rowForm (columns.map fun column => (column, (-1 : R))) v =
      -(columns.map fun column => valueAt column v).sum := by
  induction columns with
  | nil => exact neg_zero.symm
  | cons column rest ih =>
    rw [List.map_cons, rowForm_cons, ih, List.map_cons, List.sum_cons]
    ring

variable [LinearOrder R] [Roots R]

namespace Extents

/-- The row of a place in the Laplacian: six times the value there less the
values at its neighbours. -/
theorem rowForm_laplacian (extents : Extents) {i j k : Nat} (insideX : i < extents.x)
    (insideY : j < extents.y) (insideZ : k < extents.z) (v : Fin n → R) :
    Csr.rowForm ((extents.laplacianTriplets : Triplets R).toCsr.row (extents.place i j k)) v =
      (6 : Nat) * valueAt (extents.place i j k) v -
        ((extents.neighbours i j k).map fun q => valueAt q v).sum := by
  rw [Csr.rowForm_toCsr _ (extents.place_lt insideX insideY insideZ),
    extents.filter_laplacianTriplets insideX insideY insideZ, stencil, List.map_cons, List.map_map,
    Csr.rowForm_cons, sub_eq_add_neg, ← Csr.rowForm_neg_one]
  rfl

end Extents

end HexSlab

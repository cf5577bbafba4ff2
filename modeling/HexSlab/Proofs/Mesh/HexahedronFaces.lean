import HexSlab.Mesh.Coordinates
import HexSlab.Mesh.Surface
import HexSlab.Proofs.Mesh.Corners
import Mathlib.Data.List.Rotate
import Mathlib.Tactic.IntervalCases
import Mathlib.Tactic.NormNum
import Mathlib.Tactic.Ring

/-!
# Faces of hexahedra in the lattice

A face of a hexahedron is a unit square of the lattice: it lies across an axis and
has a lowest corner. The square runs around its corners along two axes, whose order
says to which side it faces; the table of faces picks the same corners in the same
cyclic order, whichever of them it begins with. The square is known by its corners,
so two faces with the same nodes lie across the same axis at the same place.
-/

namespace HexSlab

namespace Face

/-- The axis that a face lies across. -/
def axis : Face → Axis
  | .minX => .x
  | .maxX => .x
  | .minY => .y
  | .maxY => .y
  | .minZ => .z
  | .maxZ => .z

/-- The face is on the larger side of its axis. -/
def isUpper : Face → Bool
  | .minX => false
  | .maxX => true
  | .minY => false
  | .maxY => true
  | .minZ => false
  | .maxZ => true

/-- The lowest corner of a face of the hexahedron with a given lowest corner. -/
def base (p : LatticePoint) (face : Face) : LatticePoint :=
  if face.isUpper then p.next face.axis else p

/-- The face on the other side of a hexahedron. -/
def opposite : Face → Face
  | .minX => .maxX
  | .maxX => .minX
  | .minY => .maxY
  | .maxY => .minY
  | .minZ => .maxZ
  | .maxZ => .minZ

/-- The corners of a face of the hexahedron with a given lowest corner,
counterclockwise as seen from outside. -/
def corners (p : LatticePoint) (face : Face) : List LatticePoint :=
  quadrilateralCorners (face.base p) face.axes

/-- Opposite faces run along the same axes in the other order. -/
theorem axes_opposite (face : Face) : face.opposite.axes = face.axes.swap := by
  cases face <;> rfl

/-- Opposite faces lie across the same axis. -/
theorem axis_opposite (face : Face) : face.opposite.axis = face.axis := by
  cases face <;> rfl

/-- Of two opposite faces one is on the larger side. -/
theorem isUpper_opposite (face : Face) : face.opposite.isUpper = !face.isUpper := by
  cases face <;> rfl

/-- The opposite of the opposite is the face itself. -/
theorem opposite_opposite (face : Face) : face.opposite.opposite = face := by
  cases face <;> rfl

/-- Only two faces lie across an axis. -/
theorem eq_or_eq_opposite {first second : Face} (same : second.axis = first.axis) :
    second = first ∨ second = first.opposite := by
  cases first <;> cases second <;> first | exact .inl rfl | exact .inr rfl | cases same

/-- Every place in the table of faces is that of a face. -/
theorem exists_hexFace {place : Nat} (inside : place < hexFaceNodes.length) :
    ∃ face : Face, face.hexFace = place := by
  have six : place < 6 := inside
  interval_cases place
  · exact ⟨.minY, rfl⟩
  · exact ⟨.maxX, rfl⟩
  · exact ⟨.maxY, rfl⟩
  · exact ⟨.minX, rfl⟩
  · exact ⟨.minZ, rfl⟩
  · exact ⟨.maxZ, rfl⟩

/-- Every face has its place in the table. -/
theorem hexFace_lt (face : Face) : face.hexFace < hexFaceNodes.length := by
  cases face <;> decide

end Face

namespace LatticePoint

/-- Going on along an axis can be undone. -/
theorem next_inj {p q : LatticePoint} {axis : Axis} (same : p.next axis = q.next axis) :
    p = q := by
  cases p
  cases q
  cases axis <;>
    · simp only [next, LatticePoint.mk.injEq, Nat.add_right_cancel_iff] at same ⊢
      exact same

/-- Points that lie before each other are the same. -/
theorem Before.antisymm {p q : LatticePoint} (first : p.Before q) (second : q.Before p) :
    p = q := by
  cases p
  cases q
  simp only [Before] at first second
  simp only [LatticePoint.mk.injEq]
  omega

/-- The difference of two points along the axes. -/
def minus (p q : LatticePoint) : Int × Int × Int := (p.i - q.i, p.j - q.j, p.k - q.k)

end LatticePoint

/-- The cross product of two integer vectors. -/
def cross (a b : Int × Int × Int) : Int × Int × Int :=
  (a.2.1 * b.2.2 - a.2.2 * b.2.1, a.2.2 * b.1 - a.1 * b.2.2, a.1 * b.2.1 - a.2.1 * b.1)

/-- The normal of a polygon at its second corner, by the edges before and after it. -/
def normal? : List LatticePoint → Option (Int × Int × Int)
  | first :: second :: third :: _ => some (cross (second.minus first) (third.minus second))
  | _ => none

/-- A quadrilateral that runs along the axes of a face faces outward there. -/
theorem normal?_quadrilateralCorners (p : LatticePoint) (face : Face) :
    normal? (quadrilateralCorners p face.axes) = some face.outwardNormal := by
  cases face <;>
    · simp only [normal?, quadrilateralCorners, Face.axes, LatticePoint.next,
        LatticePoint.minus, cross, Face.outwardNormal, Nat.cast_add, Nat.cast_one,
        add_sub_cancel_left, sub_self]
      norm_num

/-- A face of the lower hexahedron and the opposite one of the next along the axis
are the same square, with the corners in the other direction. -/
theorem quadrilateralCorners_swap (p : LatticePoint) (axes : Axis × Axis) :
    (quadrilateralCorners p axes.swap).IsRotated (quadrilateralCorners p axes).reverse := by
  refine ⟨1, ?_⟩
  simp only [quadrilateralCorners, Prod.fst_swap, Prod.snd_swap,
    LatticePoint.next_comm p axes.2 axes.1]
  rfl

/-- The lowest corner of a quadrilateral lies before all its corners. -/
theorem before_of_mem_corners {p q : LatticePoint} {axes : Axis × Axis}
    (corner : q ∈ quadrilateralCorners p axes) : p.Before q := by
  have first := p.before_next axes.1
  simp only [quadrilateralCorners, List.mem_cons, List.not_mem_nil, or_false] at corner
  obtain rfl | rfl | rfl | rfl := corner
  · exact ⟨Nat.le_refl _, Nat.le_refl _, Nat.le_refl _⟩
  · exact first
  · exact first.trans (LatticePoint.before_next _ axes.2)
  · exact p.before_next axes.2

/-- The axis across which a face lies follows from where its square ends. -/
theorem Face.axis_eq_of_far {p : LatticePoint} {first second : Face}
    (same : (p.next first.axes.1).next first.axes.2 = (p.next second.axes.1).next second.axes.2) :
    first.axis = second.axis := by
  cases first <;> cases second <;>
    first
    | rfl
    | · simp only [axes, LatticePoint.next, LatticePoint.mk.injEq] at same
        omega

/-- The corners of a face of a hexahedron lie before the far corner of the hexahedron. -/
theorem Face.before_of_mem {p q : LatticePoint} {face : Face} (corner : q ∈ face.corners p) :
    q.Before (Block.hexahedra.farCorner p) := by
  refine (before_of_mem_quadrilateralCorners corner).trans ?_
  cases face <;>
    simp only [base, isUpper, axis, axes, Block.farCorner, LatticePoint.Before,
      LatticePoint.next, Bool.false_eq_true, if_true, if_false, Nat.le_refl, Nat.le_add_right,
      and_self]

/-- A square of the lattice is known by its corners. -/
theorem same_square {p q : LatticePoint} {first second : Face}
    (same : ∀ corner, corner ∈ quadrilateralCorners p first.axes ↔
      corner ∈ quadrilateralCorners q second.axes) : p = q ∧ first.axis = second.axis := by
  have lowest (r : LatticePoint) (axes : Axis × Axis) : r ∈ quadrilateralCorners r axes :=
    List.mem_cons_self
  have far (r : LatticePoint) (axes : Axis × Axis) :
      (r.next axes.1).next axes.2 ∈ quadrilateralCorners r axes := by
    simp only [quadrilateralCorners, List.mem_cons, true_or, or_true]
  have base : p = q := by
    refine LatticePoint.Before.antisymm ?_ ?_
    · exact before_of_mem_corners ((same q).mpr (lowest q _))
    · exact before_of_mem_corners ((same p).mp (lowest p _))
  subst base
  refine ⟨rfl, Face.axis_eq_of_far (p := p) (LatticePoint.Before.antisymm ?_ ?_)⟩
  · exact before_of_mem_quadrilateralCorners ((same _).mp (far p _))
  · exact before_of_mem_quadrilateralCorners ((same _).mpr (far p _))

/-- What the table of faces picks, at a place, from the nodes of a hexahedron. -/
def pickFace? {α : Type} (place : Nat) (nodes : List α) : Option (List α) :=
  hexFaceNodes[place]?.bind fun positions =>
    positions.mapM fun position => nodes[position - 1]?

/-- The table picks the corners of a face in their cyclic order. -/
theorem exists_pickFace? {α : Type} (value : LatticePoint → α) (p : LatticePoint) (face : Face) :
    ∃ picked, pickFace? face.hexFace ((Block.hexahedra.corners p).map value) = some picked ∧
      ((face.corners p).map value).IsRotated picked := by
  cases face with
  | minX => exact ⟨_, rfl, 3, rfl⟩
  | maxX => exact ⟨_, rfl, 0, rfl⟩
  | minY => exact ⟨_, rfl, 0, rfl⟩
  | maxY => exact ⟨_, rfl, 3, rfl⟩
  | minZ => exact ⟨_, rfl, 1, rfl⟩
  | maxZ => exact ⟨_, rfl, 0, rfl⟩

/-- The value at a place of a lattice in two directions. -/
theorem getElem?_grid2 {α : Type} (value : Nat → Nat → α) {outer inner j i : Nat}
    (hj : j < outer) (hi : i < inner) :
    (grid2 outer inner value)[j * inner + i]? = some (value j i) := by
  have inside : j + 1 ≤ outer := hj
  have here : i < 1 * inner := by rwa [Nat.one_mul]
  rw [← getElem?_grid2_shift value inside here]
  simp only [grid2, List.range_one, List.flatMap_cons, List.flatMap_nil, List.append_nil,
    Nat.add_zero, List.getElem?_map, List.getElem?_range hi, Option.map_some]

/-- The value at a place of a lattice in three directions. -/
theorem getElem?_grid3 {α : Type} (value : Nat → Nat → Nat → α) {outer middle inner k j i : Nat}
    (hk : k < outer) (hj : j < middle) (hi : i < inner) :
    (grid3 outer middle inner value)[k * (middle * inner) + (j * inner + i)]? =
      some (value k j i) := by
  have inside : k + 1 ≤ outer := hk
  have row : (j + 1) * inner ≤ middle * inner := Nat.mul_le_mul_right inner hj
  have here : j * inner + i < 1 * (middle * inner) := by
    rw [Nat.add_mul] at row
    omega
  rw [← getElem?_grid3_shift value inside here]
  simp only [grid3, List.range_one, List.flatMap_cons, List.flatMap_nil, List.append_nil,
    Nat.add_zero, getElem?_grid2 _ hj hi]

namespace Mesh

variable {R : Type}

/-- The lattice point of a node of the whole mesh. -/
def latticeAt (mesh : Mesh R) (node : Nat) : LatticePoint :=
  ⟨(node - 1) % (mesh.numX + 1), (node - 1) / (mesh.numX + 1) % (mesh.numY + 1),
    (node - 1) / mesh.layerNodes⟩

/-- The node at a lattice point lies there. -/
theorem latticeAt_nodeAt (mesh : Mesh R) {p : LatticePoint} (insideX : p.i ≤ mesh.numX)
    (insideY : p.j ≤ mesh.numY) : mesh.latticeAt (mesh.nodeAt p) = p := by
  have rows : mesh.nodeAt p - 1 = p.i + (mesh.numX + 1) * (p.j + (mesh.numY + 1) * p.k) := by
    simp only [nodeAt, localNode, layerNodes, Nat.add_sub_cancel]
    ring
  have across : p.i < mesh.numX + 1 := Nat.lt_succ_of_le insideX
  have along : p.j < mesh.numY + 1 := Nat.lt_succ_of_le insideY
  have row : (mesh.nodeAt p - 1) / (mesh.numX + 1) = p.j + (mesh.numY + 1) * p.k := by
    rw [rows, Nat.add_mul_div_left _ _ (Nat.succ_pos _), Nat.div_eq_of_lt across, Nat.zero_add]
  have layer : (mesh.nodeAt p - 1) / mesh.layerNodes = p.k := by
    rw [layerNodes, ← Nat.div_div_eq_div_mul, row, Nat.add_mul_div_left _ _ (Nat.succ_pos _),
      Nat.div_eq_of_lt along, Nat.zero_add]
  simp only [latticeAt, row, layer]
  rw [rows, Nat.add_mul_mod_self_left, Nat.add_mul_mod_self_left, Nat.mod_eq_of_lt across,
    Nat.mod_eq_of_lt along]

/-- The hexahedron of the whole mesh with a number. -/
theorem getElem?_hexahedra_serial {mesh : Mesh R} {p : LatticePoint} (insideX : p.i < mesh.numX)
    (insideY : p.j < mesh.numY) (insideZ : p.k < mesh.numZ) :
    (mesh.serial.elements .hexahedra)[mesh.hexahedronNumber p.i p.j p.k - 1]? =
      some ((Block.hexahedra.corners p).map mesh.serial.nodeAt) := by
  have place : mesh.hexahedronNumber p.i p.j p.k - 1 =
      p.k * (mesh.numY * mesh.numX) + (p.j * mesh.numX + p.i) := by
    rw [hexahedronNumber, Nat.add_sub_cancel, Nat.mul_comm mesh.numX, Nat.add_assoc]
  have origins : (mesh.serial.origins .hexahedra)[mesh.hexahedronNumber p.i p.j p.k - 1]? =
      some p := by
    rw [place]
    simp only [Mesh.origins, slab_serial]
    exact getElem?_grid3 (fun k j i => (⟨i, j, k⟩ : LatticePoint)) insideZ insideY insideX
  rw [elements_eq, List.getElem?_map, origins, Option.map_some]

end Mesh

end HexSlab

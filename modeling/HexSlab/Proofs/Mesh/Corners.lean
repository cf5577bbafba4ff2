import HexSlab.Mesh.Connectivity
import HexSlab.Proofs.Mesh.Slabs

/-!
# Elements by their corners in the lattice

Every element of a block has a lowest corner in the lattice, and its other
corners follow from the kind of the block alone. So the nodes of all elements
are given by the lattice points of the lowest corners, in order, and by the
place that each lattice point has among the nodes of the slab. Corners stay in
the slab, and those of one process are a stretch of those of the whole mesh.
-/

namespace HexSlab

/-- A node of the lattice. -/
structure LatticePoint where
  /-- Intervals before it along X. -/
  i : Nat
  /-- Intervals before it along Y. -/
  j : Nat
  /-- Intervals before it along Z. -/
  k : Nat
  deriving DecidableEq

namespace LatticePoint

/-- The next point along an axis. -/
def next (p : LatticePoint) : Axis → LatticePoint
  | .x => { p with i := p.i + 1 }
  | .y => { p with j := p.j + 1 }
  | .z => { p with k := p.k + 1 }

/-- The point a number of layers higher. -/
def raise (layers : Nat) (p : LatticePoint) : LatticePoint := { p with k := layers + p.k }

/-- Raising a point and going on along an axis can change places. -/
theorem raise_next (layers : Nat) (p : LatticePoint) (axis : Axis) :
    (p.raise layers).next axis = (p.next axis).raise layers := by
  cases axis <;> rfl

end LatticePoint

/-- The two axes that a shell on a face runs along, in the order that makes it
face outward. -/
def Face.axes : Face → Axis × Axis
  | .minX => (.z, .y)
  | .maxX => (.y, .z)
  | .minY => (.x, .z)
  | .maxY => (.z, .x)
  | .minZ => (.y, .x)
  | .maxZ => (.x, .y)

/-- The corners of a quadrilateral from its lowest one, first along one axis and
then along another. -/
def quadrilateralCorners (p : LatticePoint) (axes : Axis × Axis) : List LatticePoint :=
  [p, p.next axes.1, (p.next axes.1).next axes.2, p.next axes.2]

/-- The corners of an element of a block from its lowest one. -/
def Block.corners (p : LatticePoint) : Block → List LatticePoint
  | .hexahedra =>
    quadrilateralCorners p (.x, .y) ++ quadrilateralCorners (p.next .z) (.x, .y)
  | .shells face => quadrilateralCorners p face.axes

/-- An element has as many corners as its shape has nodes. -/
theorem Block.length_corners (p : LatticePoint) (block : Block) :
    (block.corners p).length = block.shape.nodeCount := by
  cases block <;> rfl

/-- The corners of a raised element are its raised corners. -/
theorem Block.corners_raise (layers : Nat) (p : LatticePoint) (block : Block) :
    block.corners (p.raise layers) = (block.corners p).map (LatticePoint.raise layers) := by
  cases block <;>
    simp only [corners, quadrilateralCorners, LatticePoint.raise_next, List.map_cons,
      List.map_nil, List.map_append]

/-- The corner of an element that is farthest from its lowest one. -/
def Block.farCorner (p : LatticePoint) : Block → LatticePoint
  | .hexahedra => ((p.next .z).next .x).next .y
  | .shells face => (p.next face.axes.1).next face.axes.2

/-- A point lies before another one along every axis. -/
def LatticePoint.Before (p q : LatticePoint) : Prop := p.i ≤ q.i ∧ p.j ≤ q.j ∧ p.k ≤ q.k

/-- Going on along an axis does not go back along any. -/
theorem LatticePoint.before_next (p : LatticePoint) (axis : Axis) : p.Before (p.next axis) := by
  cases axis <;> simp only [Before, next, Nat.le_refl, Nat.le_succ, and_self]

/-- What lies before a point that lies before another one lies before that. -/
theorem LatticePoint.Before.trans {p q r : LatticePoint} (first : p.Before q)
    (second : q.Before r) : p.Before r :=
  ⟨first.1.trans second.1, first.2.1.trans second.2.1, first.2.2.trans second.2.2⟩

/-- Two steps can be taken in either order. -/
theorem LatticePoint.next_comm (p : LatticePoint) (first second : Axis) :
    (p.next first).next second = (p.next second).next first := by
  cases first <;> cases second <;> rfl

/-- The corners of a quadrilateral lie before its far corner. -/
theorem before_of_mem_quadrilateralCorners {p q : LatticePoint} {axes : Axis × Axis}
    (corner : q ∈ quadrilateralCorners p axes) : q.Before ((p.next axes.1).next axes.2) := by
  have last := (p.next axes.1).before_next axes.2
  simp only [quadrilateralCorners, List.mem_cons, List.not_mem_nil, or_false] at corner
  obtain rfl | rfl | rfl | rfl := corner
  · exact (q.before_next axes.1).trans last
  · exact last
  · exact ⟨Nat.le_refl _, Nat.le_refl _, Nat.le_refl _⟩
  · rw [LatticePoint.next_comm]
    exact LatticePoint.before_next _ _

/-- The corners of an element lie before its far corner. -/
theorem Block.before_farCorner {p q : LatticePoint} {block : Block}
    (corner : q ∈ block.corners p) : q.Before (block.farCorner p) := by
  cases block with
  | shells face => exact before_of_mem_quadrilateralCorners corner
  | hexahedra =>
    obtain bottom | top := List.mem_append.mp corner
    · have raised := ((p.next .x).next .y).before_next .z
      exact (before_of_mem_quadrilateralCorners bottom).trans raised
    · exact before_of_mem_quadrilateralCorners top

/-- The places of a lattice in two directions hold the values of the function. -/
theorem mem_grid2 {α : Type} {outer inner : Nat} {value : Nat → Nat → α} {a : α} :
    a ∈ grid2 outer inner value ↔ ∃ j < outer, ∃ i < inner, value j i = a := by
  simp only [grid2, List.mem_flatMap, List.mem_map, List.mem_range]

/-- The places of a lattice in three directions hold the values of the function. -/
theorem mem_grid3 {α : Type} {outer middle inner : Nat} {value : Nat → Nat → Nat → α} {a : α} :
    a ∈ grid3 outer middle inner value ↔
      ∃ k < outer, ∃ j < middle, ∃ i < inner, value k j i = a := by
  simp only [grid3, List.mem_flatMap, List.mem_range, mem_grid2]

/-- A function of all values of a lattice in two directions. -/
theorem map_grid2 {α β : Type} (change : α → β) (outer inner : Nat) (value : Nat → Nat → α) :
    (grid2 outer inner value).map change = grid2 outer inner fun j i => change (value j i) := by
  simp only [grid2, List.map_flatMap, List.map_map, Function.comp_def]

/-- A function of all values of a lattice in three directions. -/
theorem map_grid3 {α β : Type} (change : α → β) (outer middle inner : Nat)
    (value : Nat → Nat → Nat → α) :
    (grid3 outer middle inner value).map change =
      grid3 outer middle inner fun k j i => change (value k j i) := by
  simp only [grid3, List.map_flatMap, map_grid2]

/-- Parts of one length take up their number times that length. -/
theorem length_flatMap_even {α : Type} {part : Nat → List α} {size : Nat}
    (even : ∀ k, (part k).length = size) (count : Nat) :
    ((List.range count).flatMap part).length = count * size := by
  simp only [List.length_flatMap, even, List.map_const', List.length_range,
    List.sum_replicate_nat]

/-- In a row of parts of one length, a stretch of the parts is found after those
before it. -/
theorem getElem?_flatMap_shift {α : Type} {part : Nat → List α} {size : Nat}
    (even : ∀ k, (part k).length = size) {start count total place : Nat}
    (inside : start + count ≤ total) (here : place < count * size) :
    ((List.range count).flatMap fun k => part (start + k))[place]? =
      ((List.range total).flatMap part)[start * size + place]? := by
  obtain ⟨rest, rfl⟩ : ∃ rest, total = start + (count + rest) := ⟨total - start - count, by omega⟩
  have front := length_flatMap_even even start
  have own := length_flatMap_even (fun k => even (start + k)) count
  rw [List.range_add, List.range_add, List.flatMap_append, List.map_append, List.flatMap_append,
    List.flatMap_map, List.getElem?_append_right (by omega), front, Nat.add_sub_cancel_left,
    List.getElem?_append_left (by omega)]

/-- A stretch of the outer direction of a lattice in two directions. -/
theorem getElem?_grid2_shift {α : Type} (value : Nat → Nat → α)
    {inner start count total place : Nat} (inside : start + count ≤ total)
    (here : place < count * inner) :
    (grid2 count inner fun k i => value (start + k) i)[place]? =
      (grid2 total inner value)[start * inner + place]? := by
  have even (k : Nat) : ((List.range inner).map fun i => value k i).length = inner := by
    rw [List.length_map, List.length_range]
  exact getElem?_flatMap_shift even inside here

/-- A stretch of the outer direction of a lattice in three directions. -/
theorem getElem?_grid3_shift {α : Type} (value : Nat → Nat → Nat → α)
    {middle inner start count total place : Nat} (inside : start + count ≤ total)
    (here : place < count * (middle * inner)) :
    (grid3 count middle inner fun k j i => value (start + k) j i)[place]? =
      (grid3 total middle inner value)[start * (middle * inner) + place]? :=
  getElem?_flatMap_shift (fun k => length_grid2 middle inner (value k)) inside here

namespace Mesh

variable {R : Type}

/-- The local place of a lattice point of the slab, counted from one. -/
def nodeAt (mesh : Mesh R) (p : LatticePoint) : Nat := mesh.localNode p.i p.j p.k

/-- How far the next node along an axis lies behind a node. -/
def stride (mesh : Mesh R) : Axis → Nat
  | .x => 1
  | .y => mesh.numX + 1
  | .z => mesh.layerNodes

/-- The next point along an axis is found by the stride of the axis. -/
theorem nodeAt_next (mesh : Mesh R) (p : LatticePoint) (axis : Axis) :
    mesh.nodeAt (p.next axis) = mesh.nodeAt p + mesh.stride axis := by
  cases axis with
  | x =>
    simp only [nodeAt, LatticePoint.next, localNode, stride]
    omega
  | y =>
    have row : (p.j + 1) * (mesh.numX + 1) = p.j * (mesh.numX + 1) + (mesh.numX + 1) :=
      Nat.succ_mul _ _
    simp only [nodeAt, LatticePoint.next, localNode, stride, row]
    omega
  | z =>
    have layer : (p.k + 1) * mesh.layerNodes = p.k * mesh.layerNodes + mesh.layerNodes :=
      Nat.succ_mul _ _
    simp only [nodeAt, LatticePoint.next, localNode, stride, layer]
    omega

/-- The nodes of a quadrilateral are those of its corners. -/
theorem quadrilateralNodes_eq (mesh : Mesh R) (p : LatticePoint) (axes : Axis × Axis) :
    quadrilateralNodes (mesh.nodeAt p) (mesh.stride axes.1) (mesh.stride axes.2) =
      (quadrilateralCorners p axes).map mesh.nodeAt := by
  simp only [quadrilateralNodes, quadrilateralCorners, List.map_cons, List.map_nil, nodeAt_next]

/-- The nodes of a hexahedron are those of its corners. -/
theorem hexahedronNodes_eq (mesh : Mesh R) (i j k : Nat) :
    mesh.hexahedronNodes i j k = (Block.hexahedra.corners ⟨i, j, k⟩).map mesh.nodeAt := by
  have base : mesh.nodeAt ⟨i, j, k⟩ = mesh.localNode i j k := rfl
  simp only [hexahedronNodes, Block.corners, quadrilateralCorners, List.map_cons, List.map_nil,
    List.cons_append, List.nil_append, nodeAt_next, stride, base]
  have across (n : Nat) : n + (mesh.numX + 1) + 1 = n + 1 + (mesh.numX + 1) := by omega
  have above (n : Nat) : n + mesh.layerNodes + 1 = n + 1 + mesh.layerNodes := by omega
  have behind (n : Nat) : n + mesh.layerNodes + (mesh.numX + 1) =
      n + (mesh.numX + 1) + mesh.layerNodes := by omega
  simp only [across, above, behind]

/-- The lowest corners of the elements of this process in a block, in order. -/
def origins (mesh : Mesh R) : Block → List LatticePoint
  | .hexahedra => grid3 mesh.slab.count mesh.numY mesh.numX fun k j i => ⟨i, j, k⟩
  | .shells .minX => grid2 mesh.slab.count mesh.numY fun k j => ⟨0, j, k⟩
  | .shells .maxX => grid2 mesh.slab.count mesh.numY fun k j => ⟨mesh.numX, j, k⟩
  | .shells .minY => grid2 mesh.slab.count mesh.numX fun k i => ⟨i, 0, k⟩
  | .shells .maxY => grid2 mesh.slab.count mesh.numX fun k i => ⟨i, mesh.numY, k⟩
  | .shells .minZ =>
    if mesh.layout.isFirst then grid2 mesh.numY mesh.numX fun j i => ⟨i, j, 0⟩ else []
  | .shells .maxZ =>
    if mesh.layout.isLast then grid2 mesh.numY mesh.numX fun j i => ⟨i, j, mesh.slab.count⟩
    else []

/-- The elements of a block are given by their lowest corners. -/
theorem elements_eq (mesh : Mesh R) (block : Block) :
    mesh.elements block =
      (mesh.origins block).map fun p => (block.corners p).map mesh.nodeAt := by
  cases block with
  | hexahedra => simp only [elements, hexahedra, origins, map_grid3, hexahedronNodes_eq]
  | shells face =>
    have quadrilateral (p : LatticePoint) := mesh.quadrilateralNodes_eq p face.axes
    cases face with
    | minX | maxX | minY | maxY =>
      simp only [elements, shellsOn, origins, map_grid2, Block.corners, ← quadrilateral]
      rfl
    | minZ | maxZ =>
      simp only [elements, shellsOn, origins, Block.corners, ← quadrilateral]
      split
      · rw [map_grid2]
        rfl
      · rfl

/-- There is one lowest corner for each element. -/
theorem length_origins (mesh : Mesh R) (block : Block) :
    (mesh.origins block).length = mesh.ownElementsOf block := by
  cases block with
  | hexahedra =>
    simp only [origins, length_grid3, ownElementsOf]
    rw [Nat.mul_comm, Nat.mul_comm mesh.numY]
  | shells face =>
    cases face with
    | minX | maxX | minY | maxY => simp only [origins, length_grid2, ownElementsOf, Nat.mul_comm]
    | minZ | maxZ =>
      simp only [origins, ownElementsOf]
      split
      · rw [length_grid2, Nat.mul_comm]
      · rfl

/-- The lattice points of the slab of this process. -/
def InSlab (mesh : Mesh R) (p : LatticePoint) : Prop :=
  p.Before ⟨mesh.numX, mesh.numY, mesh.slab.count⟩

/-- The far corner of every element of this process lies in its slab. -/
theorem inSlab_farCorner {mesh : Mesh R} {block : Block} {p : LatticePoint}
    (origin : p ∈ mesh.origins block) : mesh.InSlab (block.farCorner p) := by
  cases block with
  | hexahedra =>
    obtain ⟨k, hk, j, hj, i, hi, rfl⟩ := mem_grid3.mp origin
    exact ⟨hi, hj, hk⟩
  | shells face =>
    cases face with
    | minX =>
      obtain ⟨k, hk, j, hj, rfl⟩ := mem_grid2.mp origin
      exact ⟨Nat.zero_le _, hj, hk⟩
    | maxX =>
      obtain ⟨k, hk, j, hj, rfl⟩ := mem_grid2.mp origin
      exact ⟨Nat.le_refl _, hj, hk⟩
    | minY =>
      obtain ⟨k, hk, i, hi, rfl⟩ := mem_grid2.mp origin
      exact ⟨hi, Nat.zero_le _, hk⟩
    | maxY =>
      obtain ⟨k, hk, i, hi, rfl⟩ := mem_grid2.mp origin
      exact ⟨hi, Nat.le_refl _, hk⟩
    | minZ =>
      simp only [origins] at origin
      split at origin
      · obtain ⟨j, hj, i, hi, rfl⟩ := mem_grid2.mp origin
        exact ⟨hi, hj, Nat.zero_le _⟩
      · cases origin
    | maxZ =>
      simp only [origins] at origin
      split at origin
      · obtain ⟨j, hj, i, hi, rfl⟩ := mem_grid2.mp origin
        exact ⟨hi, hj, Nat.le_refl _⟩
      · cases origin

/-- All corners of the elements of this process lie in its slab. -/
theorem inSlab_of_mem_corners {mesh : Mesh R} {block : Block} {p q : LatticePoint}
    (origin : p ∈ mesh.origins block) (corner : q ∈ block.corners p) : mesh.InSlab q :=
  (Block.before_farCorner corner).trans (inSlab_farCorner origin)

/-- Points of the slab are nodes of the process. -/
theorem nodeAt_le {mesh : Mesh R} {p : LatticePoint} (inside : mesh.InSlab p) :
    mesh.nodeAt p ≤ mesh.ownNodeCount := by
  have layers := Nat.mul_le_mul_right mesh.layerNodes inside.2.2
  have rows := Nat.mul_le_mul_right (mesh.numX + 1) inside.2.1
  have layer : mesh.layerNodes = mesh.numY * (mesh.numX + 1) + (mesh.numX + 1) := by
    rw [layerNodes, Nat.mul_comm, Nat.succ_mul]
  have total : mesh.ownNodeCount = mesh.slab.count * mesh.layerNodes + mesh.layerNodes := by
    rw [ownNodeCount, Nat.mul_comm, Nat.succ_mul]
  have across := inside.1
  simp only [nodeAt, localNode] at *
  omega

end Mesh

end HexSlab

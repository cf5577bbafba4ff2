import HexSlab.Proofs.Mesh.ShellFaces
import Mathlib.Data.Finset.Image

/-!
# Neighbouring hexahedra

Across each of its faces a hexahedron has a neighbour or lies at a face of the box.
Two faces have the same nodes exactly if they are the same face or belong to
neighbours, which see the square between them from opposite sides. In a serial run
the hexahedra at a face of the box are those under the shells on it.
-/

namespace HexSlab

/-- A function that tells the places of a lattice in two directions apart takes no
value twice. -/
theorem nodup_grid2 {α : Type} {value : Nat → Nat → α} (outer inner : Nat)
    (apart : ∀ j i j' i', value j i = value j' i' → j = j' ∧ i = i') :
    (grid2 outer inner value).Nodup := by
  refine List.nodup_flatMap.mpr ⟨fun j _ => ?_, ?_⟩
  · exact List.nodup_range.map fun i i' same => (apart j i j i' same).2
  · refine List.nodup_range.imp fun {j j'} differ item here there => ?_
    obtain ⟨i, -, rfl⟩ := List.mem_map.mp here
    obtain ⟨i', -, same⟩ := List.mem_map.mp there
    exact differ (apart j' i' j i same).1.symm

/-- A function that tells the places of a lattice in three directions apart takes no
value twice. -/
theorem nodup_grid3 {α : Type} {value : Nat → Nat → Nat → α} (outer middle inner : Nat)
    (apart : ∀ k j i k' j' i', value k j i = value k' j' i' → k = k' ∧ j = j' ∧ i = i') :
    (grid3 outer middle inner value).Nodup := by
  refine List.nodup_flatMap.mpr ⟨fun k _ => ?_, ?_⟩
  · exact nodup_grid2 _ _ fun j i j' i' same => (apart k j i k j' i' same).2
  · refine List.nodup_range.imp fun {k k'} differ item here there => ?_
    obtain ⟨j, -, i, -, rfl⟩ := mem_grid2.mp here
    obtain ⟨j', -, i', -, same⟩ := mem_grid2.mp there
    exact differ (apart k' j' i' k j i same).1.symm

namespace LatticePoint

/-- The number of intervals before a point along an axis. -/
def along (p : LatticePoint) : Axis → Nat
  | .x => p.i
  | .y => p.j
  | .z => p.k

/-- Going on along an axis changes the place along this axis alone. -/
theorem along_next (p : LatticePoint) (axis other : Axis) :
    (p.next axis).along other = p.along other + if axis = other then 1 else 0 := by
  cases axis <;> cases other <;> rfl

/-- A point with an interval before it is next to another one. -/
theorem exists_next_eq {p : LatticePoint} {axis : Axis} (some : p.along axis ≠ 0) :
    ∃ q : LatticePoint, q.next axis = p := by
  cases p with
  | mk i j k =>
    cases axis with
    | x =>
      obtain ⟨before, rfl⟩ := Nat.exists_eq_succ_of_ne_zero (some : i ≠ 0)
      exact ⟨⟨before, j, k⟩, rfl⟩
    | y =>
      obtain ⟨before, rfl⟩ := Nat.exists_eq_succ_of_ne_zero (some : j ≠ 0)
      exact ⟨⟨i, before, k⟩, rfl⟩
    | z =>
      obtain ⟨before, rfl⟩ := Nat.exists_eq_succ_of_ne_zero (some : k ≠ 0)
      exact ⟨⟨i, j, before⟩, rfl⟩

end LatticePoint

/-- A face of a hexahedron tells which hexahedron it is. -/
theorem Face.base_inj {p q : LatticePoint} {face : Face} (same : face.base p = face.base q) :
    p = q := by
  unfold Face.base at same
  split at same
  · exact LatticePoint.next_inj same
  · exact same

/-- The opposite faces of a hexahedron lie at different places. -/
theorem LatticePoint.base_opposite_ne (p : LatticePoint) (face : Face) :
    face.opposite.base p ≠ face.base p := by
  have forward : (p.next face.axis).along face.axis = p.along face.axis + 1 := by
    rw [along_next, if_pos rfl]
  intro same
  have place := congrArg (fun q : LatticePoint => q.along face.axis) same
  simp only [Face.base, Face.isUpper_opposite, Face.axis_opposite] at place
  cases upper : face.isUpper <;>
    simp only [upper, Bool.not_true, Bool.not_false, Bool.false_eq_true, if_true, if_false,
      forward] at place <;>
    omega

namespace Mesh

variable {R : Type}

/-- The intervals of the whole mesh along an axis. -/
def intervals (mesh : Mesh R) : Axis → Nat
  | .x => mesh.numX
  | .y => mesh.numY
  | .z => mesh.numZ

/-- A point is the lowest corner of a hexahedron of the whole mesh. -/
def IsHexahedron (mesh : Mesh R) (p : LatticePoint) : Prop :=
  ∀ axis, p.along axis < mesh.intervals axis

/-- A hexahedron lies at a face of the box. -/
def Outermost (mesh : Mesh R) (p : LatticePoint) (face : Face) : Prop :=
  if face.isUpper then p.along face.axis + 1 = mesh.intervals face.axis
  else p.along face.axis = 0

/-- A hexahedron lies on the other side of a face of another one. -/
def IsNeighbour (mesh : Mesh R) (p : LatticePoint) (face : Face) (q : LatticePoint) : Prop :=
  mesh.IsHexahedron q ∧ face.opposite.base q = face.base p

/-- A hexahedron lies between the ends of each axis. -/
theorem isHexahedron_iff {mesh : Mesh R} {p : LatticePoint} :
    mesh.IsHexahedron p ↔ p.i < mesh.numX ∧ p.j < mesh.numY ∧ p.k < mesh.numZ := by
  constructor
  · intro inside
    exact ⟨inside .x, inside .y, inside .z⟩
  · rintro ⟨insideX, insideY, insideZ⟩ axis
    cases axis with
    | x => exact insideX
    | y => exact insideY
    | z => exact insideZ

/-- A hexahedron at a face of the box has no neighbour there, any other one has. -/
theorem IsHexahedron.outermost_iff {mesh : Mesh R} {p : LatticePoint}
    (inside : mesh.IsHexahedron p) (face : Face) :
    mesh.Outermost p face ↔ ∀ q, ¬ mesh.IsNeighbour p face q := by
  simp only [Outermost, IsNeighbour, Face.base, Face.isUpper_opposite, Face.axis_opposite]
  cases face.isUpper with
  | true =>
    simp only [Bool.not_true, Bool.false_eq_true, if_true, if_false]
    constructor
    · rintro last q ⟨within, rfl⟩
      have beyond := within face.axis
      rw [LatticePoint.along_next, if_pos rfl] at beyond
      omega
    · intro none
      by_contra further
      refine none _ ⟨fun axis => ?_, rfl⟩
      have here := inside axis
      rw [LatticePoint.along_next]
      split
      · rename_i same
        subst same
        omega
      · exact here
  | false =>
    simp only [Bool.not_false, Bool.false_eq_true, if_true, if_false]
    constructor
    · rintro first q ⟨-, rfl⟩
      rw [LatticePoint.along_next, if_pos rfl] at first
      omega
    · intro none
      by_contra inner
      obtain ⟨q, rfl⟩ := LatticePoint.exists_next_eq inner
      refine none q ⟨fun axis => ?_, rfl⟩
      have next := inside axis
      rw [LatticePoint.along_next] at next
      omega

/-- The neighbour of a neighbour is the hexahedron itself. -/
theorem IsNeighbour.symm {mesh : Mesh R} {p q : LatticePoint} {face : Face}
    (inside : mesh.IsHexahedron p) (neighbour : mesh.IsNeighbour p face q) :
    mesh.IsNeighbour q face.opposite p :=
  ⟨inside, by rw [Face.opposite_opposite, neighbour.2]⟩

/-- The nodes of a face of a hexahedron. -/
def squareNodes (mesh : Mesh R) (p : LatticePoint) (face : Face) : Finset Nat :=
  ((face.corners p).map mesh.nodeAt).toFinset

/-- Faces that lie across one axis at one place have the same nodes. -/
theorem squareNodes_opposite (mesh : Mesh R) {p q : LatticePoint} {face : Face}
    (same : face.opposite.base q = face.base p) :
    ((face.opposite.corners q).map mesh.nodeAt).IsRotated
      ((face.corners p).map mesh.nodeAt).reverse := by
  rw [← List.map_reverse, Face.corners, same, Face.axes_opposite]
  exact (quadrilateralCorners_swap _ _).map _

/-- Different points among those of hexahedra have different nodes. -/
theorem IsHexahedron.nodeAt_inj {mesh : Mesh R} {p q corner other : LatticePoint}
    {first second : Face} (insideP : mesh.IsHexahedron p) (insideQ : mesh.IsHexahedron q)
    (onP : corner ∈ first.corners p) (onQ : other ∈ second.corners q)
    (same : mesh.nodeAt corner = mesh.nodeAt other) : corner = other := by
  have withinP := Face.before_of_mem onP
  have withinQ := Face.before_of_mem onQ
  rw [← latticeAt_nodeAt mesh (withinP.1.trans (insideP .x))
      (withinP.2.1.trans (insideP .y)), same,
    latticeAt_nodeAt mesh (withinQ.1.trans (insideQ .x)) (withinQ.2.1.trans (insideQ .y))]

/-- The corners of a face follow from its nodes. -/
theorem IsHexahedron.mem_corners_of_same {mesh : Mesh R} {p q : LatticePoint} {first second : Face}
    (insideP : mesh.IsHexahedron p) (insideQ : mesh.IsHexahedron q)
    (same : mesh.squareNodes p first = mesh.squareNodes q second) {corner : LatticePoint}
    (onP : corner ∈ first.corners p) : corner ∈ second.corners q := by
  have node : mesh.nodeAt corner ∈ mesh.squareNodes q second := by
    rw [← same]
    exact List.mem_toFinset.mpr (List.mem_map_of_mem onP)
  obtain ⟨other, onQ, equal⟩ := List.mem_map.mp (List.mem_toFinset.mp node)
  rwa [insideP.nodeAt_inj insideQ onP onQ equal.symm]

/-- Two faces have the same nodes exactly if they are the same face or belong to
neighbours. -/
theorem IsHexahedron.squareNodes_eq_iff {mesh : Mesh R} {p q : LatticePoint}
    {first second : Face} (insideP : mesh.IsHexahedron p) (insideQ : mesh.IsHexahedron q) :
    mesh.squareNodes q second = mesh.squareNodes p first ↔
      q = p ∧ second = first ∨ second = first.opposite ∧ mesh.IsNeighbour p first q := by
  constructor
  · intro same
    obtain ⟨base, axis⟩ := same_square fun corner =>
      ⟨fun onQ => insideQ.mem_corners_of_same insideP same onQ,
        fun onP => insideP.mem_corners_of_same insideQ same.symm onP⟩
    obtain rfl | rfl := Face.eq_or_eq_opposite axis
    · exact .inl ⟨Face.base_inj base, rfl⟩
    · exact .inr ⟨rfl, insideQ, base⟩
  · rintro (⟨rfl, rfl⟩ | ⟨rfl, neighbour⟩)
    · rfl
    · exact List.toFinset_eq_of_perm _ _
        ((mesh.squareNodes_opposite neighbour.2).perm.trans (List.reverse_perm _))

/-- The process of a serial run has all intervals along Z. -/
theorem Accepted.slab_alone {mesh : Mesh R} {split : ZSplit} (accepted : mesh.Accepted split)
    (alone : mesh.layout = .serial) : mesh.slab.start = 0 ∧ mesh.slab.count = mesh.numZ := by
  have first : mesh.layout.isFirst = true := by rw [alone]; rfl
  have last : mesh.layout.isLast = true := by rw [alone]; rfl
  have start := accepted.start_slab_of_isFirst first
  have stop := accepted.slab_end_of_isLast last
  rw [start, Nat.zero_add] at stop
  exact ⟨start, stop⟩

section Serial

variable {mesh : Mesh R} {split : ZSplit}

/-- The hexahedra of a serial run are those of the whole mesh. -/
theorem Accepted.mem_origins_iff (accepted : mesh.Accepted split) (alone : mesh.layout = .serial)
    {p : LatticePoint} : p ∈ mesh.origins .hexahedra ↔ mesh.IsHexahedron p := by
  rw [isHexahedron_iff]
  simp only [origins, (accepted.slab_alone alone).2]
  constructor
  · intro listed
    obtain ⟨k, hk, j, hj, i, hi, rfl⟩ := mem_grid3.mp listed
    exact ⟨hi, hj, hk⟩
  · rintro ⟨insideX, insideY, insideZ⟩
    exact mem_grid3.mpr ⟨p.k, insideZ, p.j, insideY, p.i, insideX, rfl⟩

/-- No hexahedron is listed twice. -/
theorem nodup_origins (mesh : Mesh R) : (mesh.origins .hexahedra).Nodup :=
  nodup_grid3 _ _ _ fun _ _ _ _ _ _ same =>
    ⟨congrArg LatticePoint.k same, congrArg LatticePoint.j same, congrArg LatticePoint.i same⟩

/-- The hexahedra under the shells on a face lie at it, on whatever process. -/
theorem Accepted.outermost_of_mem_under (accepted : mesh.Accepted split) {p : LatticePoint}
    {face : Face} (listed : p ∈ mesh.under face) : mesh.Outermost p face := by
  cases face with
  | minX =>
    obtain ⟨k, -, j, -, rfl⟩ := mem_grid2.mp listed
    rfl
  | maxX =>
    obtain ⟨k, -, j, -, rfl⟩ := mem_grid2.mp listed
    exact Nat.sub_add_cancel accepted.numX_pos
  | minY =>
    obtain ⟨k, -, i, -, rfl⟩ := mem_grid2.mp listed
    rfl
  | maxY =>
    obtain ⟨k, -, i, -, rfl⟩ := mem_grid2.mp listed
    exact Nat.sub_add_cancel accepted.numY_pos
  | minZ =>
    simp only [under] at listed
    split at listed
    · obtain ⟨j, -, i, -, rfl⟩ := mem_grid2.mp listed
      rfl
    · cases listed
  | maxZ =>
    simp only [under] at listed
    split at listed
    · obtain ⟨j, -, i, -, rfl⟩ := mem_grid2.mp listed
      exact Nat.sub_add_cancel accepted.numZ_pos
    · cases listed

/-- In a serial run there is a shell over each hexahedron that lies at a face. -/
theorem Accepted.mem_under_of_outermost (accepted : mesh.Accepted split)
    (alone : mesh.layout = .serial) {p : LatticePoint} {face : Face}
    (inside : mesh.IsHexahedron p) (outermost : mesh.Outermost p face) :
    p ∈ mesh.under face := by
  have first : mesh.layout.isFirst = true := by rw [alone]; rfl
  have last : mesh.layout.isLast = true := by rw [alone]; rfl
  obtain ⟨start, count⟩ := accepted.slab_alone alone
  obtain ⟨insideX, insideY, insideZ⟩ := isHexahedron_iff.mp inside
  cases p with
  | mk i j k =>
    simp only [under, first, last, start, count, if_true, Nat.zero_add]
    cases face with
    | minX =>
      obtain rfl : i = 0 := outermost
      exact mem_grid2.mpr ⟨k, insideZ, j, insideY, rfl⟩
    | maxX =>
      have same : mesh.numX - 1 = i := Nat.sub_eq_of_eq_add (outermost : i + 1 = _).symm
      exact mem_grid2.mpr ⟨k, insideZ, j, insideY, by rw [same]⟩
    | minY =>
      obtain rfl : j = 0 := outermost
      exact mem_grid2.mpr ⟨k, insideZ, i, insideX, rfl⟩
    | maxY =>
      have same : mesh.numY - 1 = j := Nat.sub_eq_of_eq_add (outermost : j + 1 = _).symm
      exact mem_grid2.mpr ⟨k, insideZ, i, insideX, by rw [same]⟩
    | minZ =>
      obtain rfl : k = 0 := outermost
      exact mem_grid2.mpr ⟨j, insideY, i, insideX, rfl⟩
    | maxZ =>
      have same : mesh.numZ - 1 = k := Nat.sub_eq_of_eq_add (outermost : k + 1 = _).symm
      exact mem_grid2.mpr ⟨j, insideY, i, insideX, by rw [same]⟩

/-- In a serial run the hexahedra under the shells on a face are those that lie at
it. -/
theorem Accepted.mem_under_iff (accepted : mesh.Accepted split) (alone : mesh.layout = .serial)
    {p : LatticePoint} {face : Face} :
    p ∈ mesh.under face ↔ mesh.IsHexahedron p ∧ mesh.Outermost p face := by
  constructor
  · intro listed
    have inside := isHexahedron_iff.mpr (accepted.inside_of_mem_under listed)
    exact ⟨inside, accepted.outermost_of_mem_under listed⟩
  · rintro ⟨inside, outermost⟩
    exact accepted.mem_under_of_outermost alone inside outermost

/-- No hexahedron lies under two shells on a face. -/
theorem nodup_under (mesh : Mesh R) (face : Face) : (mesh.under face).Nodup := by
  cases face with
  | minX | maxX =>
    exact nodup_grid2 _ _ fun _ _ _ _ same =>
      ⟨Nat.add_left_cancel (congrArg LatticePoint.k same), congrArg LatticePoint.j same⟩
  | minY | maxY =>
    exact nodup_grid2 _ _ fun _ _ _ _ same =>
      ⟨Nat.add_left_cancel (congrArg LatticePoint.k same), congrArg LatticePoint.i same⟩
  | minZ | maxZ =>
    simp only [under]
    split
    · exact nodup_grid2 _ _ fun _ _ _ _ same =>
        ⟨congrArg LatticePoint.j same, congrArg LatticePoint.i same⟩
    · exact List.nodup_nil

end Serial

end Mesh

end HexSlab

import HexSlab.Proofs.Mesh.HexahedronFaces
import HexSlab.Proofs.Mesh.SlabRefinement

/-!
# Shells lie on the faces of hexahedra

The shells of a process on a face of the box and the hexahedra under them are walked
over in the same order. Each shell is the outer face of its hexahedron: raised to
its place in the whole mesh, the square it runs around is that face, so its nodes are
those which the table of faces picks from the hexahedron, in the same cyclic order,
and its normal points out of the box.
-/

namespace HexSlab.Mesh

variable {R : Type} {split : ZSplit}

/-- The lowest corners, in the whole mesh, of the hexahedra under the shells of this
process on a face, in the order of the shells. -/
def under (mesh : Mesh R) : Face → List LatticePoint
  | .minX => grid2 mesh.slab.count mesh.numY fun k j => ⟨0, j, mesh.slab.start + k⟩
  | .maxX =>
    grid2 mesh.slab.count mesh.numY fun k j => ⟨mesh.numX - 1, j, mesh.slab.start + k⟩
  | .minY => grid2 mesh.slab.count mesh.numX fun k i => ⟨i, 0, mesh.slab.start + k⟩
  | .maxY =>
    grid2 mesh.slab.count mesh.numX fun k i => ⟨i, mesh.numY - 1, mesh.slab.start + k⟩
  | .minZ =>
    if mesh.layout.isFirst then grid2 mesh.numY mesh.numX fun j i => ⟨i, j, 0⟩ else []
  | .maxZ =>
    if mesh.layout.isLast then grid2 mesh.numY mesh.numX fun j i => ⟨i, j, mesh.numZ - 1⟩
    else []

/-- The surface map numbers the hexahedra under the shells. -/
theorem surfaceMap_eq (mesh : Mesh R) (face : Face) :
    mesh.surfaceMap face =
      (mesh.under face).map fun p => (mesh.hexahedronNumber p.i p.j p.k, face.hexFace) := by
  cases face with
  | minX | maxX | minY | maxY => simp only [surfaceMap, under, map_grid2]
  | minZ | maxZ =>
    simp only [surfaceMap, under]
    split
    · simp only [map_grid2]
    · rfl

/-- Each shell begins at the lowest corner of the face of the hexahedron under it. -/
theorem Accepted.map_base_under {mesh : Mesh R} (accepted : mesh.Accepted split) (face : Face) :
    (mesh.under face).map (fun p => face.base p) =
      (mesh.origins (.shells face)).map (LatticePoint.raise mesh.slab.start) := by
  have someX := accepted.numX_pos
  have someY := accepted.numY_pos
  have someZ := accepted.numZ_pos
  cases face with
  | minX | minY =>
    simp only [under, origins, map_grid2, Face.base, Face.isUpper, Bool.false_eq_true, if_false,
      LatticePoint.raise]
  | maxX | maxY =>
    simp only [under, origins, map_grid2, Face.base, Face.isUpper, Face.axis, if_true,
      LatticePoint.raise, LatticePoint.next, Nat.sub_add_cancel someX, Nat.sub_add_cancel someY]
  | minZ =>
    cases first : mesh.layout.isFirst with
    | false => simp only [under, origins, first, Bool.false_eq_true, if_false, List.map_nil]
    | true =>
      simp only [under, origins, first, if_true, map_grid2, Face.base, Face.isUpper,
        Bool.false_eq_true, if_false, LatticePoint.raise, accepted.start_slab_of_isFirst first,
        Nat.zero_add]
  | maxZ =>
    cases last : mesh.layout.isLast with
    | false => simp only [under, origins, last, Bool.false_eq_true, if_false, List.map_nil]
    | true =>
      simp only [under, origins, last, if_true, map_grid2, Face.base, Face.isUpper, Face.axis,
        LatticePoint.raise, LatticePoint.next, Nat.sub_add_cancel someZ,
        accepted.slab_end_of_isLast last]

/-- The hexahedra under the shells are hexahedra of the whole mesh. -/
theorem Accepted.inside_of_mem_under {mesh : Mesh R} (accepted : mesh.Accepted split) {face : Face}
    {p : LatticePoint} (listed : p ∈ mesh.under face) :
    p.i < mesh.numX ∧ p.j < mesh.numY ∧ p.k < mesh.numZ := by
  have someX := accepted.numX_pos
  have someY := accepted.numY_pos
  have someZ := accepted.numZ_pos
  have within := accepted.slab_le
  have lastX : mesh.numX - 1 < mesh.numX := Nat.sub_lt someX Nat.one_pos
  have lastY : mesh.numY - 1 < mesh.numY := Nat.sub_lt someY Nat.one_pos
  have lastZ : mesh.numZ - 1 < mesh.numZ := Nat.sub_lt someZ Nat.one_pos
  have layer {k : Nat} (own : k < mesh.slab.count) : mesh.slab.start + k < mesh.numZ := by omega
  cases face with
  | minX =>
    obtain ⟨k, hk, j, hj, rfl⟩ := mem_grid2.mp listed
    exact ⟨someX, hj, layer hk⟩
  | maxX =>
    obtain ⟨k, hk, j, hj, rfl⟩ := mem_grid2.mp listed
    exact ⟨lastX, hj, layer hk⟩
  | minY =>
    obtain ⟨k, hk, i, hi, rfl⟩ := mem_grid2.mp listed
    exact ⟨hi, someY, layer hk⟩
  | maxY =>
    obtain ⟨k, hk, i, hi, rfl⟩ := mem_grid2.mp listed
    exact ⟨hi, lastY, layer hk⟩
  | minZ =>
    simp only [under] at listed
    split at listed
    · obtain ⟨j, hj, i, hi, rfl⟩ := mem_grid2.mp listed
      exact ⟨hi, hj, someZ⟩
    · cases listed
  | maxZ =>
    simp only [under] at listed
    split at listed
    · obtain ⟨j, hj, i, hi, rfl⟩ := mem_grid2.mp listed
      exact ⟨hi, hj, lastZ⟩
    · cases listed

/-- The corners of a face of a hexahedron of the whole mesh lie in the whole mesh. -/
theorem latticeAt_map_corners {mesh : Mesh R} {p : LatticePoint} {face : Face}
    (insideX : p.i < mesh.numX) (insideY : p.j < mesh.numY) :
    ((face.corners p).map mesh.serial.nodeAt).map mesh.latticeAt = face.corners p := by
  rw [List.map_map]
  refine (List.map_congr_left fun q corner => ?_).trans (List.map_id _)
  have within := Face.before_of_mem corner
  exact latticeAt_nodeAt mesh (within.1.trans insideX) (within.2.1.trans insideY)

/-- The nodes of a shell in the whole mesh are those of the face of the hexahedron
under it. -/
theorem Accepted.globalNodes?_shell {mesh : Mesh R} (accepted : mesh.Accepted split) {face : Face}
    {place : Nat} {p : LatticePoint} (here : (mesh.under face)[place]? = some p) :
    mesh.globalNodes? (elementAt 4 (mesh.elements (.shells face)).flatten place) =
      some ((face.corners p).map mesh.serial.nodeAt) := by
  have raised : (mesh.origins (.shells face))[place]?.map (LatticePoint.raise mesh.slab.start) =
      some (face.base p) := by
    rw [← List.getElem?_map, ← accepted.map_base_under, List.getElem?_map, here, Option.map_some]
  obtain ⟨q, origin, base⟩ := Option.map_eq_some_iff.mp raised
  have inside : ∀ corner ∈ (Block.shells face).corners q, mesh.InSlab corner :=
    fun corner listed => inSlab_of_mem_corners (List.mem_of_getElem? origin) listed
  have element : (mesh.elements (.shells face))[place]? =
      some (((Block.shells face).corners q).map mesh.nodeAt) := by
    rw [elements_eq, List.getElem?_map, origin, Option.map_some]
  have size : ∀ nodes ∈ mesh.elements (.shells face), nodes.length = 4 :=
    fun nodes listed => length_of_mem_elements listed
  rw [elementAt_flatten size element, globalNodes?_map_nodeAt inside, ← Block.corners_raise,
    base]
  rfl

/-- No number that a hexahedron of the whole mesh has is greater than their number. -/
theorem hexahedronNumber_le {mesh : Mesh R} {p : LatticePoint} (insideX : p.i < mesh.numX)
    (insideY : p.j < mesh.numY) (insideZ : p.k < mesh.numZ) :
    mesh.hexahedronNumber p.i p.j p.k ≤ mesh.numX * mesh.numY * mesh.numZ := by
  have rows := Nat.mul_le_mul_right mesh.numX (show p.j + 1 ≤ mesh.numY from insideY)
  have layers := Nat.mul_le_mul_right (mesh.numX * mesh.numY)
    (show p.k + 1 ≤ mesh.numZ from insideZ)
  rw [Nat.succ_mul] at rows layers
  rw [hexahedronNumber, Nat.mul_comm _ mesh.numZ]
  rw [Nat.mul_comm mesh.numY] at rows
  omega

/-- A process answers with the hexahedra under its shells on a face, if words hold the
numbers of all hexahedra. -/
theorem Accepted.surfaceMap?_eq {mesh : Mesh R} (accepted : mesh.Accepted split)
    (fits : mesh.numX * mesh.numY * mesh.numZ < Word.limit) (face : Face) :
    mesh.surfaceMap? face = some (mesh.surfaceMap face) := by
  have steps : Word.Hold [mesh.numX * mesh.numY, mesh.slab.start + mesh.slab.count] := by
    refine Word.hold_of_le fits fun number step => ?_
    rcases List.mem_pair.mp step with rfl | rfl
    · exact accepted.layer_le
    · have some : 0 < mesh.numX * mesh.numY := Nat.mul_pos accepted.numX_pos accepted.numY_pos
      exact accepted.slab_le.trans (Nat.le_mul_of_pos_left _ some)
  have numbers : Word.Hold ((mesh.surfaceMap face).map (·.1)) := by
    refine Word.hold_of_le fits fun number listed => ?_
    rw [surfaceMap_eq, List.map_map] at listed
    obtain ⟨p, under, rfl⟩ := List.mem_map.mp listed
    obtain ⟨insideX, insideY, insideZ⟩ := accepted.inside_of_mem_under under
    exact hexahedronNumber_le insideX insideY insideZ
  exact (if_pos steps).trans (if_pos numbers)

/-- What makes the shells in a block lie on the face they belong to. -/
structure ShellsCover (mesh : Mesh R) (number : Nat) (face : Face) : Prop where
  /-- The process answers with the numbers of its nodes. -/
  nodes : mesh.nodeMap? = some mesh.nodeMap
  /-- Each shell runs around the face of the hexahedron that is mapped to it, and
  faces outward. There is one entry for each shell of this process in the block. -/
  covers : ∃ block entries shells hexahedra, mesh.block number = .ok block ∧
    mesh.surfaceMap? face = some entries ∧
    mesh.ownElementsOf? block = some entries.length ∧
    mesh.connectivity? number = .ok (some shells) ∧
    mesh.serial.connectivity? 1 = .ok (some hexahedra) ∧
    ∀ place hexahedron side, entries[place]? = some (hexahedron, side) →
      ∃ quad picked, mesh.globalNodes? (elementAt 4 shells place) = some quad ∧
        1 ≤ hexahedron ∧
        pickFace? side (elementAt 8 hexahedra (hexahedron - 1)) = some picked ∧
        quad.IsRotated picked ∧
        normal? (quad.map mesh.latticeAt) = some face.outwardNormal

/-- There is one hexahedron under each shell. -/
theorem Accepted.length_surfaceMap {mesh : Mesh R} (accepted : mesh.Accepted split)
    (face : Face) : (mesh.surfaceMap face).length = mesh.ownElementsOf (.shells face) := by
  have lengths := congrArg List.length (accepted.map_base_under face)
  rw [List.length_map, List.length_map, length_origins] at lengths
  rw [surfaceMap_eq, List.length_map, lengths]

/-- On an accepted mesh every block of shells lies on its face, if words hold the corners
of all hexahedra. -/
theorem Accepted.shellsCover {mesh : Mesh R} (accepted : mesh.Accepted split)
    (corners : 8 * (mesh.numX * mesh.numY * mesh.numZ) < Word.limit) {number : Nat} {face : Face}
    (found : mesh.block number = .ok (.shells face)) : mesh.ShellsCover number face where
  nodes := accepted.nodeMap?_eq (Nat.lt_of_le_of_lt accepted.nodeCount_le_corners corners)
  covers := by
    have hexahedra : mesh.numX * mesh.numY * mesh.numZ < Word.limit := by omega
    have whole : mesh.serial.block 1 = .ok .hexahedra := rfl
    refine ⟨_, _, _, _, found, accepted.surfaceMap?_eq hexahedra face, ?_,
      accepted.connectivity?_eq corners found,
      accepted.serial.connectivity?_eq corners whole, ?_⟩
    · rw [accepted.length_surfaceMap]
      exact accepted.ownElementsOf?_eq hexahedra _
    intro place hexahedron side mapped
    rw [surfaceMap_eq, List.getElem?_map, Option.map_eq_some_iff] at mapped
    obtain ⟨p, here, same⟩ := mapped
    obtain ⟨rfl, rfl⟩ := Prod.mk.inj same
    obtain ⟨insideX, insideY, insideZ⟩ := accepted.inside_of_mem_under (List.mem_of_getElem? here)
    obtain ⟨picked, picks, rotated⟩ := exists_pickFace? mesh.serial.nodeAt p face
    have size : ∀ nodes ∈ mesh.serial.elements .hexahedra, nodes.length = 8 :=
      fun nodes listed => length_of_mem_elements listed
    refine ⟨_, picked, accepted.globalNodes?_shell here, Nat.succ_pos _, ?_, rotated, ?_⟩
    · rw [elementAt_flatten size (getElem?_hexahedra_serial insideX insideY insideZ), picks]
    · rw [latticeAt_map_corners insideX insideY]
      exact normal?_quadrilateralCorners _ face

/-- On every mesh that can be built, if words hold the corners of all hexahedra, each shell
lies on the face of the hexahedron it is mapped to and faces out of the box. -/
theorem shells_cover_faces_outward [Scalar R] [Trigonometry R] {numX numY numZ : Nat}
    {settings : List (Setting R)} {layout : Layout} {mesh : Mesh R}
    (built : build numX numY numZ settings layout = .ok mesh)
    (corners : 8 * (mesh.numX * mesh.numY * mesh.numZ) < Word.limit) {number : Nat} {face : Face}
    (shells : mesh.block number = .ok (.shells face)) : mesh.ShellsCover number face := by
  obtain ⟨split, -, accepted, -⟩ := exists_split_of_build built
  exact accepted.shellsCover corners shells

/-- Three layers split one to two, with shells on the upper side of each axis: those
across Y on the second process lie on the third face of the last four hexahedra. -/
theorem shells_cover_faces_outward_upper :
    ∃ mesh : Mesh Float,
      build 2 1 3 [.split [1, 2], .shells .maxX, .shells .maxY] ⟨2, 1, by decide⟩ = .ok mesh ∧
        8 * (mesh.numX * mesh.numY * mesh.numZ) < Word.limit ∧
        mesh.block 3 = .ok (.shells .maxY) ∧
        mesh.surfaceMap? .maxY = some [(3, 2), (4, 2), (5, 2), (6, 2)] ∧
        mesh.ShellsCover 3 .maxY := by
  have built : build 2 1 3 [.split [1, 2], .shells .maxX, .shells .maxY] ⟨2, 1, by decide⟩ =
      .ok ((unit 2 1 3 ⟨2, 1, by decide⟩ : Mesh Float).configure
        [.split [1, 2], .shells .maxX, .shells .maxY]) := rfl
  exact ⟨_, built, by decide, rfl, by decide, shells_cover_faces_outward built (by decide) rfl⟩

/-- Past words shells are not mapped to hexahedra. The process of a serial run does not
answer with the hexahedra under its shells, and neither does the second of two processes,
which has two shells, the later of them on a hexahedron whose number is no word. -/
theorem shells_unmapped_past_words :
    (∃ mesh : Mesh Float,
      build 4611686018427387904 6 1 [.shells .minZ] .serial = .ok mesh ∧
        mesh.block 2 = .ok (.shells .minZ) ∧ mesh.surfaceMap? .minZ = none) ∧
    ∃ mesh : Mesh Float,
      build 2 2 2 [.split [4611686018427387903, 1], .shells .maxX] ⟨2, 1, by decide⟩ =
        .ok mesh ∧
        mesh.block 2 = .ok (.shells .maxX) ∧
        mesh.ownElementsOf? (.shells .maxX) = some 2 ∧ mesh.surfaceMap? .maxX = none :=
  ⟨⟨_, rfl, rfl, by decide⟩, _, rfl, rfl, by decide, by decide⟩

end HexSlab.Mesh

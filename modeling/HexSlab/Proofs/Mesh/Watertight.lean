import HexSlab.Proofs.Mesh.Neighbours
import Mathlib.Data.List.ProdSigma

/-!
# The mesh is conforming and its surface closed

In a serial run the sides of all hexahedra are the unit squares of the box. A square
inside is the side of two hexahedra that are neighbours along its axis and see it
from opposite sides; a square on the surface is the side of one hexahedron, and one
shell of the face it lies on covers it. Squares are told apart by their nodes, so all
of this is said in terms of sets of nodes.
-/

namespace HexSlab

/-- A list without repetition in which one member has a property. -/
theorem filter_eq_singleton {α : Type} {items : List α} {holds : α → Bool} {first : α}
    (distinct : items.Nodup) (only : ∀ item, item ∈ items ∧ holds item = true ↔ item = first) :
    items.filter holds = [first] := by
  refine List.perm_singleton.mp ((List.perm_ext_iff_of_nodup (distinct.filter holds)
    (List.nodup_singleton first)).mpr fun item => ?_)
  rw [List.mem_filter, only, List.mem_singleton]

/-- A list without repetition in which two members have a property. -/
theorem filter_perm_pair {α : Type} {items : List α} {holds : α → Bool} {first second : α}
    (distinct : items.Nodup) (differ : first ≠ second)
    (only : ∀ item, item ∈ items ∧ holds item = true ↔ item = first ∨ item = second) :
    (items.filter holds).Perm [first, second] := by
  have pair : [first, second].Nodup :=
    List.nodup_cons.mpr ⟨fun same => differ (List.mem_singleton.mp same), List.nodup_singleton _⟩
  refine (List.perm_ext_iff_of_nodup (distinct.filter holds) pair).mpr fun item => ?_
  rw [List.mem_filter, only, List.mem_cons, List.mem_singleton]

namespace Mesh

variable {R : Type} {split : ZSplit}

/-- The sides of the hexahedra of this process, each by the place of the hexahedron
and the place of its face in the table of faces. -/
def sides (mesh : Mesh R) : List (Nat × Nat) :=
  List.range (mesh.elements .hexahedra).length ×ˢ List.range hexFaceNodes.length

/-- The nodes of a side, as the table of faces picks them. -/
def sideNodes? (mesh : Mesh R) (side : Nat × Nat) : Option (List Nat) :=
  (mesh.elements .hexahedra)[side.1]?.bind (pickFace? side.2)

/-- The sides with a set of nodes. -/
def sidesOn (mesh : Mesh R) (nodes : Finset Nat) : List (Nat × Nat) :=
  mesh.sides.filter fun side => (mesh.sideNodes? side).map List.toFinset = some nodes

/-- The shells of this process in all blocks, each by its nodes. -/
def quads (mesh : Mesh R) : List (List Nat) :=
  mesh.shells.flatMap fun face => mesh.elements (.shells face)

/-- The shells with a set of nodes. -/
def quadsOn (mesh : Mesh R) (nodes : Finset Nat) : List (List Nat) :=
  mesh.quads.filter fun quad => quad.toFinset = nodes

section Serial

variable {mesh : Mesh R}

/-- A side is the face of the hexahedron with a given lowest corner. -/
def SideAt (mesh : Mesh R) (side : Nat × Nat) (p : LatticePoint) (face : Face) : Prop :=
  (mesh.origins .hexahedra)[side.1]? = some p ∧ side.2 = face.hexFace

/-- The sides are the faces of the hexahedra. -/
theorem mem_sides_iff {side : Nat × Nat} :
    side ∈ mesh.sides ↔ ∃ p face, mesh.SideAt side p face := by
  have length : (mesh.elements .hexahedra).length = (mesh.origins .hexahedra).length := by
    rw [elements_eq, List.length_map]
  cases side with
  | mk place face =>
    rw [sides, List.mem_product, List.mem_range, List.mem_range, length]
    constructor
    · rintro ⟨inside, number⟩
      obtain ⟨face, rfl⟩ := Face.exists_hexFace number
      exact ⟨_, face, List.getElem?_eq_getElem inside, rfl⟩
    · rintro ⟨p, face, here, rfl⟩
      exact ⟨(List.getElem?_eq_some_iff.mp here).1, face.hexFace_lt⟩

/-- Each face of a hexahedron is a side. -/
theorem Accepted.exists_sideAt (accepted : mesh.Accepted split) (alone : mesh.layout = .serial)
    {p : LatticePoint} (inside : mesh.IsHexahedron p) (face : Face) :
    ∃ side, mesh.SideAt side p face := by
  obtain ⟨place, here⟩ := List.getElem?_of_mem ((accepted.mem_origins_iff alone).mpr inside)
  exact ⟨(place, face.hexFace), here, rfl⟩

/-- Sides belong to hexahedra of the mesh. -/
theorem SideAt.isHexahedron {side : Nat × Nat} {p : LatticePoint} {face : Face}
    (here : mesh.SideAt side p face) (accepted : mesh.Accepted split)
    (alone : mesh.layout = .serial) :
    mesh.IsHexahedron p :=
  (accepted.mem_origins_iff alone).mp (List.mem_of_getElem? here.1)

/-- A face of a hexahedron is one side. -/
theorem SideAt.eq {side other : Nat × Nat} {p : LatticePoint} {face : Face}
    (first : mesh.SideAt side p face) (second : mesh.SideAt other p face) : other = side := by
  have inside := (List.getElem?_eq_some_iff.mp second.1).1
  have place : other.1 = side.1 :=
    (List.getElem?_inj inside mesh.nodup_origins).mp (second.1.trans first.1.symm)
  exact Prod.ext place (second.2.trans first.2.symm)

/-- The table of faces picks the nodes of the face for a side. -/
theorem SideAt.exists_nodes {side : Nat × Nat} {p : LatticePoint} {face : Face}
    (here : mesh.SideAt side p face) :
    ∃ nodes, mesh.sideNodes? side = some nodes ∧
      ((face.corners p).map mesh.nodeAt).IsRotated nodes ∧
      nodes.toFinset = mesh.squareNodes p face := by
  obtain ⟨nodes, picks, rotated⟩ := exists_pickFace? mesh.nodeAt p face
  refine ⟨nodes, ?_, rotated, (List.toFinset_eq_of_perm _ _ rotated.perm).symm⟩
  rw [sideNodes?, elements_eq, List.getElem?_map, here.1, here.2]
  exact picks

/-- The sides with the nodes of a side are itself and that of its neighbour. -/
theorem SideAt.same_nodes_iff {side : Nat × Nat} {p : LatticePoint} {face : Face}
    (here : mesh.SideAt side p face) (accepted : mesh.Accepted split)
    (alone : mesh.layout = .serial) (other : Nat × Nat) :
    other ∈ mesh.sides ∧
        decide ((mesh.sideNodes? other).map List.toFinset = some (mesh.squareNodes p face)) =
          true ↔
      other = side ∨ ∃ q, mesh.IsNeighbour p face q ∧ mesh.SideAt other q face.opposite := by
  have inside := here.isHexahedron accepted alone
  rw [decide_eq_true_eq]
  constructor
  · rintro ⟨listed, same⟩
    obtain ⟨q, second, there⟩ := mem_sides_iff.mp listed
    obtain ⟨nodes, found, -, set⟩ := there.exists_nodes
    rw [found, Option.map_some, set, Option.some.injEq] at same
    obtain ⟨rfl, rfl⟩ | ⟨rfl, neighbour⟩ :=
      (inside.squareNodes_eq_iff (there.isHexahedron accepted alone)).mp same
    · exact .inl (here.eq there)
    · exact .inr ⟨q, neighbour, there⟩
  · rintro (rfl | ⟨q, neighbour, there⟩)
    · obtain ⟨nodes, found, -, set⟩ := here.exists_nodes
      exact ⟨mem_sides_iff.mpr ⟨p, face, here⟩, by rw [found, Option.map_some, set]⟩
    · obtain ⟨nodes, found, -, set⟩ := there.exists_nodes
      refine ⟨mem_sides_iff.mpr ⟨q, _, there⟩, ?_⟩
      rw [found, Option.map_some, set, Option.some.injEq]
      exact (inside.squareNodes_eq_iff neighbour.1).mpr (.inr ⟨rfl, neighbour⟩)

/-- No side is listed twice. -/
theorem nodup_sides (mesh : Mesh R) : mesh.sides.Nodup :=
  List.nodup_range.product List.nodup_range

/-- The faces that the shells of all blocks cover, each by its hexahedron. -/
def covered (mesh : Mesh R) : List (LatticePoint × Face) :=
  mesh.shells.flatMap fun face => (mesh.under face).map fun p => (p, face)

/-- The shells are the covered faces. -/
theorem Accepted.quads_eq (accepted : mesh.Accepted split) (alone : mesh.layout = .serial) :
    mesh.quads = mesh.covered.map fun square => (square.2.corners square.1).map mesh.nodeAt := by
  have lowest (face : Face) :
      mesh.origins (.shells face) = (mesh.under face).map fun p => face.base p := by
    have start (p : LatticePoint) : p.raise mesh.slab.start = p := by
      rw [(accepted.slab_alone alone).1, LatticePoint.raise, Nat.zero_add]
    rw [accepted.map_base_under, List.map_congr_left fun p _ => start p, List.map_id']
  rw [quads, covered, List.map_flatMap]
  refine List.flatMap_congr fun face _ => ?_
  rw [elements_eq, lowest, List.map_map, List.map_map]
  rfl

/-- With one block on each face, a face is covered if its hexahedron lies at the box. -/
theorem Accepted.mem_covered_iff (accepted : mesh.Accepted split) (alone : mesh.layout = .serial)
    (everywhere : mesh.shells.Perm Face.all) {square : LatticePoint × Face} :
    square ∈ mesh.covered ↔
      mesh.IsHexahedron square.1 ∧ mesh.Outermost square.1 square.2 := by
  have block : square.2 ∈ mesh.shells := everywhere.mem_iff.mpr (Face.mem_all _)
  rw [← accepted.mem_under_iff alone, covered, List.mem_flatMap]
  constructor
  · rintro ⟨face, -, listed⟩
    obtain ⟨p, under, rfl⟩ := List.mem_map.mp listed
    exact under
  · intro under
    exact ⟨square.2, block, List.mem_map.mpr ⟨square.1, under, rfl⟩⟩

/-- With one block on each face, no face is covered twice. -/
theorem nodup_covered (everywhere : mesh.shells.Perm Face.all) : mesh.covered.Nodup := by
  have blocks : mesh.shells.Nodup := everywhere.nodup_iff.mpr (by decide)
  refine List.nodup_flatMap.mpr ⟨fun face _ => ?_, blocks.imp fun {first second} differ => ?_⟩
  · exact (mesh.nodup_under face).map fun _ _ same => (Prod.mk.inj same).1
  · intro square here there
    obtain ⟨p, -, rfl⟩ := List.mem_map.mp here
    obtain ⟨q, -, same⟩ := List.mem_map.mp there
    exact differ (Prod.mk.inj same).2.symm

/-- The covered faces with the nodes of a side: that side itself, if it lies at the
box. A neighbour is never covered from the other side. -/
theorem SideAt.covered_same_nodes_iff {side : Nat × Nat} {p : LatticePoint} {face : Face}
    (here : mesh.SideAt side p face) (accepted : mesh.Accepted split)
    (alone : mesh.layout = .serial) (everywhere : mesh.shells.Perm Face.all)
    (square : LatticePoint × Face) :
    square ∈ mesh.covered ∧ mesh.squareNodes square.1 square.2 = mesh.squareNodes p face ↔
      square = (p, face) ∧ mesh.Outermost p face := by
  have inside := here.isHexahedron accepted alone
  cases square with
  | mk q second =>
    rw [accepted.mem_covered_iff alone everywhere]
    constructor
    · rintro ⟨⟨within, outermost⟩, same⟩
      obtain ⟨rfl, rfl⟩ | ⟨rfl, neighbour⟩ := (inside.squareNodes_eq_iff within).mp same
      · exact ⟨rfl, outermost⟩
      · exact absurd (neighbour.symm inside) ((within.outermost_iff _).mp outermost p)
    · rintro ⟨same, outermost⟩
      obtain ⟨rfl, rfl⟩ := Prod.mk.inj same
      exact ⟨⟨inside, outermost⟩, rfl⟩

/-- The shells with a set of nodes are the covered faces that have it. -/
theorem Accepted.quadsOn_eq (accepted : mesh.Accepted split) (alone : mesh.layout = .serial)
    (nodes : Finset Nat) :
    mesh.quadsOn nodes =
      (mesh.covered.filter fun square => mesh.squareNodes square.1 square.2 = nodes).map
        fun square => (square.2.corners square.1).map mesh.nodeAt := by
  rw [quadsOn, accepted.quads_eq alone, List.filter_map]
  rfl

/-- One shell has the nodes of a side that lies at the box. -/
theorem SideAt.length_quadsOn {side : Nat × Nat} {p : LatticePoint} {face : Face}
    (here : mesh.SideAt side p face) (accepted : mesh.Accepted split)
    (alone : mesh.layout = .serial) (everywhere : mesh.shells.Perm Face.all)
    (outermost : mesh.Outermost p face) :
    (mesh.quadsOn (mesh.squareNodes p face)).length = 1 := by
  have one : (mesh.covered.filter fun square =>
      mesh.squareNodes square.1 square.2 = mesh.squareNodes p face) = [(p, face)] := by
    refine filter_eq_singleton (nodup_covered everywhere) fun square => ?_
    rw [decide_eq_true_eq, here.covered_same_nodes_iff accepted alone everywhere]
    exact and_iff_left outermost
  rw [accepted.quadsOn_eq alone, one]
  rfl

/-- No shell has the nodes of a side inside the box. -/
theorem SideAt.quadsOn_eq_nil {side : Nat × Nat} {p : LatticePoint} {face : Face}
    (here : mesh.SideAt side p face) (accepted : mesh.Accepted split)
    (alone : mesh.layout = .serial) (everywhere : mesh.shells.Perm Face.all)
    (inner : ¬ mesh.Outermost p face) :
    mesh.quadsOn (mesh.squareNodes p face) = [] := by
  rw [accepted.quadsOn_eq alone, List.map_eq_nil_iff, List.filter_eq_nil_iff]
  intro square listed same
  rw [decide_eq_true_eq] at same
  exact inner
    ((here.covered_same_nodes_iff accepted alone everywhere square).mp ⟨listed, same⟩).2

/-- A side that lies at the box is alone with its nodes. -/
theorem SideAt.sidesOn_eq {side : Nat × Nat} {p : LatticePoint} {face : Face}
    (here : mesh.SideAt side p face) (accepted : mesh.Accepted split)
    (alone : mesh.layout = .serial) (outermost : mesh.Outermost p face) :
    mesh.sidesOn (mesh.squareNodes p face) = [side] := by
  have none := ((here.isHexahedron accepted alone).outermost_iff face).mp outermost
  refine filter_eq_singleton mesh.nodup_sides fun other => ?_
  rw [here.same_nodes_iff accepted alone]
  exact or_iff_left fun ⟨q, neighbour, _⟩ => none q neighbour

/-- A side inside the box has its nodes in common with that of its neighbour, which
runs around them in the other direction. -/
theorem SideAt.exists_other {side : Nat × Nat} {p : LatticePoint} {face : Face}
    (here : mesh.SideAt side p face) (accepted : mesh.Accepted split)
    (alone : mesh.layout = .serial) (inner : ¬ mesh.Outermost p face) :
    ∃ other q, mesh.IsNeighbour p face q ∧ mesh.SideAt other q face.opposite ∧
      other.1 ≠ side.1 ∧ (mesh.sidesOn (mesh.squareNodes p face)).Perm [side, other] := by
  have inside := here.isHexahedron accepted alone
  obtain ⟨q, neighbour⟩ : ∃ q, mesh.IsNeighbour p face q := by
    by_contra none
    exact inner ((inside.outermost_iff face).mpr fun q neighbour => none ⟨q, neighbour⟩)
  obtain ⟨other, there⟩ := accepted.exists_sideAt alone neighbour.1 face.opposite
  have apart : other.1 ≠ side.1 := by
    intro same
    have hexahedron : q = p := Option.some.inj (there.1.symm.trans (same ▸ here.1))
    subst hexahedron
    exact q.base_opposite_ne face neighbour.2
  have differ : side ≠ other := fun same => apart (congrArg Prod.fst same).symm
  refine ⟨other, q, neighbour, there, apart, ?_⟩
  refine filter_perm_pair mesh.nodup_sides differ fun next => ?_
  rw [here.same_nodes_iff accepted alone]
  refine or_congr_right ⟨?_, ?_⟩
  · rintro ⟨q', also, place⟩
    have hexahedron : q' = q := Face.base_inj (also.2.trans neighbour.2.symm)
    subst hexahedron
    exact there.eq place
  · rintro rfl
    exact ⟨q, neighbour, there⟩

end Serial

/-- A side that one hexahedron alone has, with one shell on it. -/
def IsOuterSide (mesh : Mesh R) (side : Nat × Nat) (nodes : List Nat) : Prop :=
  mesh.sidesOn nodes.toFinset = [side] ∧ (mesh.quadsOn nodes.toFinset).length = 1

/-- A side that two hexahedra have in common, which run around it in opposite
directions, with no shell on it. -/
def IsInnerSide (mesh : Mesh R) (side : Nat × Nat) (nodes : List Nat) : Prop :=
  mesh.quadsOn nodes.toFinset = [] ∧
    ∃ other otherNodes, (mesh.sidesOn nodes.toFinset).Perm [side, other] ∧
      other.1 ≠ side.1 ∧ mesh.sideNodes? other = some otherNodes ∧
      otherNodes.IsRotated nodes.reverse

/-- The hexahedra fit together side by side, and the shells close the surface. -/
structure Watertight (mesh : Mesh R) : Prop where
  /-- The nodes of a block are those of its elements, one after the other. -/
  elements : ∀ number block, mesh.block number = .ok block →
    mesh.connectivity number = .ok (mesh.elements block).flatten ∧
      ∀ nodes ∈ mesh.elements block, nodes.length = block.shape.nodeCount
  /-- Each side has four nodes and belongs to one hexahedron and one shell, or to two
  hexahedra and no shell. -/
  sides : ∀ side ∈ mesh.sides, ∃ nodes, mesh.sideNodes? side = some nodes ∧
    nodes.length = 4 ∧ (mesh.IsOuterSide side nodes ∨ mesh.IsInnerSide side nodes)
  /-- Each shell lies on a side that one hexahedron alone has. -/
  shells : ∀ quad ∈ mesh.quads, ∃ side nodes, mesh.sideNodes? side = some nodes ∧
    nodes.toFinset = quad.toFinset ∧ mesh.IsOuterSide side nodes

/-- A serial mesh with one block of shells on each face is watertight. -/
theorem Accepted.watertight {mesh : Mesh R} (accepted : mesh.Accepted split)
    (alone : mesh.layout = .serial) (everywhere : mesh.shells.Perm Face.all) :
    mesh.Watertight where
  elements := by
    intro number block found
    exact ⟨congrArg (Except.map _) found, fun _ listed => length_of_mem_elements listed⟩
  sides := by
    intro side listed
    obtain ⟨p, face, here⟩ := mem_sides_iff.mp listed
    obtain ⟨nodes, found, rotated, set⟩ := here.exists_nodes
    refine ⟨nodes, found, rotated.perm.length_eq.symm, ?_⟩
    rw [IsOuterSide, IsInnerSide, set]
    by_cases outermost : mesh.Outermost p face
    · exact .inl ⟨here.sidesOn_eq accepted alone outermost,
        here.length_quadsOn accepted alone everywhere outermost⟩
    · obtain ⟨other, q, neighbour, there, apart, pair⟩ :=
        here.exists_other accepted alone outermost
      obtain ⟨otherNodes, foundOther, rotatedOther, -⟩ := there.exists_nodes
      have turned := mesh.squareNodes_opposite neighbour.2
      exact .inr ⟨here.quadsOn_eq_nil accepted alone everywhere outermost, other, otherNodes,
        pair, apart, foundOther, rotatedOther.symm.trans (turned.trans rotated.reverse)⟩
  shells := by
    intro quad listed
    rw [accepted.quads_eq alone, List.mem_map] at listed
    obtain ⟨⟨p, face⟩, covered, rfl⟩ := listed
    obtain ⟨inside, outermost⟩ := (accepted.mem_covered_iff alone everywhere).mp covered
    obtain ⟨side, here⟩ := accepted.exists_sideAt alone inside face
    obtain ⟨nodes, found, -, set⟩ := here.exists_nodes
    refine ⟨side, nodes, found, set, ?_⟩
    rw [IsOuterSide, set]
    exact ⟨here.sidesOn_eq accepted alone outermost,
      here.length_quadsOn accepted alone everywhere outermost⟩

/-- Whatever serial mesh is built with one block of shells on each face, in any order,
its hexahedra fit together side by side and its shells close the surface. -/
theorem hexahedra_and_shells_watertight [Scalar R] [Trigonometry R] {numX numY numZ : Nat}
    {settings : List (Setting R)} {mesh : Mesh R}
    (built : build numX numY numZ settings .serial = .ok mesh)
    (everywhere : mesh.shells.Perm Face.all) : mesh.Watertight := by
  obtain ⟨split, alone, accepted, -⟩ := exists_split_of_build built
  exact accepted.watertight alone everywhere

/-- Two hexahedra side by side, with shells all around: they have one side in common. -/
theorem hexahedra_and_shells_watertight_pair :
    ∃ mesh : Mesh Float,
      build 2 1 1 (Face.all.map .shells) .serial = .ok mesh ∧ mesh.shells.Perm Face.all ∧
        mesh.sidesOn {2, 5, 8, 11} = [(0, 1), (1, 3)] ∧ mesh.Watertight := by
  have built : build 2 1 1 (Face.all.map .shells) .serial =
      .ok ((unit 2 1 1 .serial : Mesh Float).configure (Face.all.map .shells)) := rfl
  have everywhere : ((unit 2 1 1 .serial : Mesh Float).configure
      (Face.all.map .shells)).shells.Perm Face.all := List.Perm.refl _
  exact ⟨_, built, everywhere, by decide, hexahedra_and_shells_watertight built everywhere⟩

end Mesh

end HexSlab

import HexSlab.Mesh.Connectivity
import HexSlab.Mesh.NodeSet

/-!
# The surface of the box

Which hexahedron lies under each shell, and which nodes of a slab lie on a face
of the whole box. The faces across Z touch the slabs of the first and the last
process only. Numbers are exact, as in `HexSlab.Mesh.Numbering`; the places of
nodes are those of a set with a bit for each node of the slab, so no word exceeds
its limit where there is room for the set.
-/

namespace HexSlab.Mesh

variable {R : Type}

/-- The global number of the hexahedron at `(i, j, k)` of the whole mesh. -/
def hexahedronNumber (mesh : Mesh R) (i j k : Nat) : Nat :=
  k * (mesh.numX * mesh.numY) + j * mesh.numX + i + 1

/-- For each shell of this process on a face, in the order of the shells, the
global number of the hexahedron under it and the face of that hexahedron. -/
def surfaceMap (mesh : Mesh R) (face : Face) : List (Nat × Nat) :=
  let start := mesh.slab.start
  let count := mesh.slab.count
  let under :=
    match face with
    | .minX => grid2 count mesh.numY fun k j => mesh.hexahedronNumber 0 j (start + k)
    | .maxX => grid2 count mesh.numY fun k j => mesh.hexahedronNumber (mesh.numX - 1) j (start + k)
    | .minY => grid2 count mesh.numX fun k i => mesh.hexahedronNumber i 0 (start + k)
    | .maxY => grid2 count mesh.numX fun k i => mesh.hexahedronNumber i (mesh.numY - 1) (start + k)
    | .minZ =>
      if mesh.layout.isFirst then
        grid2 mesh.numY mesh.numX fun j i => mesh.hexahedronNumber i j 0
      else []
    | .maxZ =>
      if mesh.layout.isLast then
        grid2 mesh.numY mesh.numX fun j i => mesh.hexahedronNumber i j (mesh.numZ - 1)
      else []
  under.map fun number => (number, face.hexFace)

/-- The place of a node of the slab, counted from zero. -/
def nodePlace (mesh : Mesh R) (i j k : Nat) : Nat :=
  k * mesh.layerNodes + j * (mesh.numX + 1) + i

/-- The nodes of this process on a face of the whole box. -/
def faceNodes (mesh : Mesh R) (face : Face) : NodeSet :=
  let layers := mesh.slab.count + 1
  let places :=
    match face with
    | .minX => grid2 layers (mesh.numY + 1) fun k j => mesh.nodePlace 0 j k
    | .maxX => grid2 layers (mesh.numY + 1) fun k j => mesh.nodePlace mesh.numX j k
    | .minY => grid2 layers (mesh.numX + 1) fun k i => mesh.nodePlace i 0 k
    | .maxY => grid2 layers (mesh.numX + 1) fun k i => mesh.nodePlace i mesh.numY k
    | .minZ => if mesh.layout.isFirst then List.range mesh.layerNodes else []
    | .maxZ =>
      if mesh.layout.isLast then
        List.range' (mesh.slab.count * mesh.layerNodes) mesh.layerNodes
      else []
  (NodeSet.empty mesh.ownNodeCount).insertAll places

/-- The nodes of this process on the surface of the whole box. -/
def boundaryNodes (mesh : Mesh R) : NodeSet :=
  Face.all.foldl (fun set face => set.union (mesh.faceNodes face))
    (NodeSet.empty mesh.ownNodeCount)

end HexSlab.Mesh

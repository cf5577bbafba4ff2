import HexSlab.Mesh.Lattice
import HexSlab.Mesh.Numbering

/-!
# The nodes of each element

Elements refer to nodes by their local places in the slab, counted from one. A
hexahedron lists the nodes of its bottom counterclockwise from above and then
those of its top in the same order; a shell lists its nodes counterclockwise as
seen from outside the mesh.
-/

namespace HexSlab.Mesh

variable {R : Type}

/-- The local place of a node of the lattice, counted from one. -/
def localNode (mesh : Mesh R) (i j k : Nat) : Nat :=
  k * mesh.layerNodes + j * (mesh.numX + 1) + i + 1

/-- The nodes of the hexahedron with the lowest corner at `(i, j, k)` of the slab. -/
def hexahedronNodes (mesh : Mesh R) (i j k : Nat) : List Nat :=
  let base := mesh.localNode i j k
  let layer := mesh.layerNodes
  let row := mesh.numX + 1
  [base, base + 1, base + row + 1, base + row,
    base + layer, base + 1 + layer, base + row + 1 + layer, base + row + layer]

/-- The nodes of a quadrilateral with the lowest corner at `base`, which runs
first along `first` and then along `second`. -/
def quadrilateralNodes (base first second : Nat) : List Nat :=
  [base, base + first, base + first + second, base + second]

/-- The hexahedra of this process. -/
def hexahedra (mesh : Mesh R) : List (List Nat) :=
  grid3 mesh.slab.count mesh.numY mesh.numX fun k j i => mesh.hexahedronNodes i j k

/-- The shells of this process on a face. The two directions of a quadrilateral
are taken in the order that makes it face outward. -/
def shellsOn (mesh : Mesh R) (face : Face) : List (List Nat) :=
  let row := mesh.numX + 1
  let layer := mesh.layerNodes
  let count := mesh.slab.count
  match face with
  | .minX =>
    grid2 count mesh.numY fun k j => quadrilateralNodes (mesh.localNode 0 j k) layer row
  | .maxX =>
    grid2 count mesh.numY fun k j => quadrilateralNodes (mesh.localNode mesh.numX j k) row layer
  | .minY =>
    grid2 count mesh.numX fun k i => quadrilateralNodes (mesh.localNode i 0 k) 1 layer
  | .maxY =>
    grid2 count mesh.numX fun k i => quadrilateralNodes (mesh.localNode i mesh.numY k) layer 1
  | .minZ =>
    if mesh.layout.isFirst then
      grid2 mesh.numY mesh.numX fun j i => quadrilateralNodes (mesh.localNode i j 0) row 1
    else []
  | .maxZ =>
    if mesh.layout.isLast then
      grid2 mesh.numY mesh.numX fun j i => quadrilateralNodes (mesh.localNode i j count) 1 row
    else []

/-- The elements of this process in a block, each by its nodes. -/
def elements (mesh : Mesh R) : Block → List (List Nat)
  | .hexahedra => mesh.hexahedra
  | .shells face => mesh.shellsOn face

/-- The nodes of all elements of this process in the block with a number, one
element after the other. -/
def connectivity (mesh : Mesh R) (number : Nat) : Except BlockOutOfRange (List Nat) :=
  (mesh.block number).map fun block => (mesh.elements block).flatten

end HexSlab.Mesh

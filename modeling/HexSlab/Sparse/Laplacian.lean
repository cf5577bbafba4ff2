import HexSlab.Mesh.Lattice
import HexSlab.Mesh.Numbering
import HexSlab.Sparse.Triplets

/-!
# The Laplacian of a lattice

Each node of a slab has six on the diagonal and minus one for every neighbour
one step away within the slab. Nodes at the edge of the slab have fewer
neighbours, as if the values just outside were held at zero. Places are exact
numbers: a word holds every place of a matrix that there is room to store.
-/

namespace HexSlab

/-- The extents of a lattice: the number of nodes in each direction. -/
structure Extents where
  /-- Nodes along X. -/
  x : Nat
  /-- Nodes along Y. -/
  y : Nat
  /-- Nodes along Z. -/
  z : Nat
  deriving DecidableEq

namespace Extents

/-- The place of a node in the numbering with X fastest and Z slowest. -/
def place (extents : Extents) (i j k : Nat) : Nat := (k * extents.y + j) * extents.x + i

/-- The places of the neighbours of a node, one step away in one direction. -/
def neighbours (extents : Extents) (i j k : Nat) : List Nat :=
  (if 0 < i then [extents.place (i - 1) j k] else []) ++
    (if i + 1 < extents.x then [extents.place (i + 1) j k] else []) ++
    (if 0 < j then [extents.place i (j - 1) k] else []) ++
    (if j + 1 < extents.y then [extents.place i (j + 1) k] else []) ++
    (if 0 < k then [extents.place i j (k - 1)] else []) ++
    if k + 1 < extents.z then [extents.place i j (k + 1)] else []

/-- The entries of the Laplacian in the row of a node. -/
def stencil {R : Type} [Scalar R] (extents : Extents) (i j k : Nat) : List (Nat × Nat × R) :=
  let row := extents.place i j k
  (row, row, Scalar.ofNat 6) :: (extents.neighbours i j k).map fun column => (row, column, -1)

/-- The entries of the Laplacian. -/
def laplacianTriplets {R : Type} [Scalar R] (extents : Extents) : Triplets R where
  rowCount := extents.x * extents.y * extents.z
  colCount := extents.x * extents.y * extents.z
  entries := (grid3 extents.z extents.y extents.x fun k j i => extents.stencil i j k).flatten

end Extents

namespace Mesh

variable {R : Type}

/-- The extents of the slab of this process. -/
def slabExtents (mesh : Mesh R) : Extents :=
  ⟨mesh.numX + 1, mesh.numY + 1, mesh.slab.count + 1⟩

/-- The Laplacian on the nodes of this process. -/
def laplacian {S : Type} [Scalar S] (mesh : Mesh R) : Csr S :=
  mesh.slabExtents.laplacianTriplets.toCsr

end Mesh

end HexSlab

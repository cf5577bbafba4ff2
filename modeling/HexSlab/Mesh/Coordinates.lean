import HexSlab.Mesh.Lattice
import HexSlab.Mesh.Numbering

/-!
# Where the nodes are

A node's place in space is its place in the lattice, scaled, moved and then
rotated. It depends on the global lattice alone, so processes that share a node
compute the same coordinates for it.
-/

namespace HexSlab.Mesh

variable {R : Type} [Scalar R]

/-- The point of a node of the global lattice before any rotation. -/
def unrotatedPoint (mesh : Mesh R) (i j k : Nat) : Vec3 R :=
  (mesh.scale.scale (Vec3.ofCounts i j k)).add mesh.offset

/-- The point of a node of the global lattice. -/
def point (mesh : Mesh R) (i j k : Nat) : Vec3 R :=
  match mesh.rotation with
  | some rotation => (mesh.unrotatedPoint i j k).mulMat rotation
  | none => mesh.unrotatedPoint i j k

/-- The points of the nodes of this process, by their local places. -/
def coordinates (mesh : Mesh R) : List (Vec3 R) :=
  let start := mesh.slab.start
  grid3 (mesh.slab.count + 1) (mesh.numY + 1) (mesh.numX + 1) fun k j i =>
    mesh.point i j (start + k)

/-- The components of the coordinates as three lists. -/
def coordinateComponents (mesh : Mesh R) : List R × List R × List R :=
  let points := mesh.coordinates
  (points.map (·.x), points.map (·.y), points.map (·.z))

end HexSlab.Mesh

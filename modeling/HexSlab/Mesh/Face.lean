/-!
# Faces of the box and of a hexahedron

The mesh fills a box with six faces. Each face of the box is covered by the
same face of the hexahedra that touch it; the nodes of a hexahedron's face are
listed counterclockwise as seen from outside.
-/

namespace HexSlab

/-- A face of the box: the smaller or the larger side along one axis. -/
inductive Face where
  /-- The side `x = 0`. -/
  | minX
  /-- The side where `x` is largest. -/
  | maxX
  /-- The side `y = 0`. -/
  | minY
  /-- The side where `y` is largest. -/
  | maxY
  /-- The side `z = 0`. -/
  | minZ
  /-- The side where `z` is largest. -/
  | maxZ
  deriving DecidableEq

/-- The nodes of each face of a hexahedron, by their positions in its list of
nodes, counted from one. -/
def hexFaceNodes : List (List Nat) :=
  [[1, 2, 6, 5], [2, 3, 7, 6], [3, 4, 8, 7], [4, 1, 5, 8], [4, 3, 2, 1], [5, 6, 7, 8]]

namespace Face

/-- All faces, axis by axis. -/
def all : List Face := [.minX, .maxX, .minY, .maxY, .minZ, .maxZ]

/-- The letter of a face: small for the smaller side, a capital for the larger. -/
def letter : Face → Char
  | .minX => 'x'
  | .maxX => 'X'
  | .minY => 'y'
  | .maxY => 'Y'
  | .minZ => 'z'
  | .maxZ => 'Z'

/-- The face with a given letter. -/
def ofLetter? (c : Char) : Option Face := all.find? fun face => face.letter == c

/-- The name of a face. -/
def name : Face → String
  | .minX => "MinX"
  | .maxX => "MaxX"
  | .minY => "MinY"
  | .maxY => "MaxY"
  | .minZ => "MinZ"
  | .maxZ => "MaxZ"

/-- The place in `hexFaceNodes` of the face of a hexahedron that covers this
face of the box. -/
def hexFace : Face → Nat
  | .minY => 0
  | .maxX => 1
  | .maxY => 2
  | .minX => 3
  | .minZ => 4
  | .maxZ => 5

/-- The unit vector that points out of the box. -/
def outwardNormal : Face → Int × Int × Int
  | .minX => (-1, 0, 0)
  | .maxX => (1, 0, 0)
  | .minY => (0, -1, 0)
  | .maxY => (0, 1, 0)
  | .minZ => (0, 0, -1)
  | .maxZ => (0, 0, 1)

/-- Every face is in the list of all faces. -/
theorem mem_all (face : Face) : face ∈ all := by cases face <;> decide

/-- The letter of a face is read back as that face. -/
theorem ofLetter?_letter (face : Face) : ofLetter? face.letter = some face := by
  cases face <;> decide

end Face

end HexSlab

import HexSlab.Mesh.Basic

/-!
# Counting and numbering nodes and elements

Nodes are numbered with X varying fastest, then Y, then Z. Elements are
numbered block after block: the hexahedra first, then the shells in the order
in which their blocks were added. Global numbers start at one. Everything a
process needs follows from the intervals and its slab, without an exchange. The
numbers here are exact; which of them a process can answer with is said in
`HexSlab.Mesh.Answers`.
-/

namespace HexSlab

/-- The shape of the elements of a block. -/
inductive Shape where
  /-- A hexahedron with eight nodes. -/
  | hexahedron
  /-- A quadrilateral shell with four nodes. -/
  | quadrilateral
  deriving DecidableEq

namespace Shape

/-- The name of a shape in mesh files. -/
def name : Shape → String
  | .hexahedron => "hex8"
  | .quadrilateral => "shell4"

/-- The number of nodes of an element. -/
def nodeCount : Shape → Nat
  | .hexahedron => 8
  | .quadrilateral => 4

end Shape

/-- A block of elements. -/
inductive Block where
  /-- All hexahedra. -/
  | hexahedra
  /-- The shells on one face. -/
  | shells (face : Face)
  deriving DecidableEq

/-- The shape of the elements of a block. -/
def Block.shape : Block → Shape
  | .hexahedra => .hexahedron
  | .shells _ => .quadrilateral

namespace Mesh

variable {R : Type}

/-- Nodes in one layer of constant Z. -/
def layerNodes (mesh : Mesh R) : Nat := (mesh.numX + 1) * (mesh.numY + 1)

/-- Nodes of the whole mesh. -/
def nodeCount (mesh : Mesh R) : Nat := mesh.layerNodes * (mesh.numZ + 1)

/-- Nodes of this process, with the layers it shares with its neighbours. -/
def ownNodeCount (mesh : Mesh R) : Nat := mesh.layerNodes * (mesh.slab.count + 1)

/-- All blocks, in order. -/
def blocks (mesh : Mesh R) : List Block := .hexahedra :: mesh.shells.map .shells

/-- The number of blocks. -/
def blockCount (mesh : Mesh R) : Nat := mesh.blocks.length

/-- The block with a number, counted from one. -/
def block (mesh : Mesh R) (number : Nat) : Except BlockOutOfRange Block :=
  match number with
  | 0 => .error ⟨0, mesh.blockCount⟩
  | index + 1 =>
    match mesh.blocks[index]? with
    | some block => .ok block
    | none => .error ⟨index + 1, mesh.blockCount⟩

/-- Elements of a block in the whole mesh. -/
def elementsOf (mesh : Mesh R) : Block → Nat
  | .hexahedra => mesh.numX * mesh.numY * mesh.numZ
  | .shells .minX => mesh.numY * mesh.numZ
  | .shells .maxX => mesh.numY * mesh.numZ
  | .shells .minY => mesh.numX * mesh.numZ
  | .shells .maxY => mesh.numX * mesh.numZ
  | .shells .minZ => mesh.numX * mesh.numY
  | .shells .maxZ => mesh.numX * mesh.numY

/-- Elements of a block in the slab of this process. The faces across Z belong
to the first and the last process. -/
def ownElementsOf (mesh : Mesh R) : Block → Nat
  | .hexahedra => mesh.numX * mesh.numY * mesh.slab.count
  | .shells .minX => mesh.numY * mesh.slab.count
  | .shells .maxX => mesh.numY * mesh.slab.count
  | .shells .minY => mesh.numX * mesh.slab.count
  | .shells .maxY => mesh.numX * mesh.slab.count
  | .shells .minZ => if mesh.layout.isFirst then mesh.numX * mesh.numY else 0
  | .shells .maxZ => if mesh.layout.isLast then mesh.numX * mesh.numY else 0

/-- Elements of a block on processes of lower rank. -/
def lowerElementsOf (mesh : Mesh R) : Block → Nat
  | .hexahedra => mesh.slab.start * mesh.numX * mesh.numY
  | .shells .minX => mesh.slab.start * mesh.numY
  | .shells .maxX => mesh.slab.start * mesh.numY
  | .shells .minY => mesh.slab.start * mesh.numX
  | .shells .maxY => mesh.slab.start * mesh.numX
  | .shells .minZ => 0
  | .shells .maxZ => 0

/-- Elements of the whole mesh in a number of blocks. -/
def elementsBefore (mesh : Mesh R) (count : Nat) : Nat :=
  ((mesh.blocks.take count).map mesh.elementsOf).foldl (· + ·) 0

/-- Elements of the whole mesh. -/
def elementCount (mesh : Mesh R) : Nat := mesh.elementsBefore mesh.blockCount

/-- Elements of this process. -/
def ownElementCount (mesh : Mesh R) : Nat :=
  (mesh.blocks.map mesh.ownElementsOf).foldl (· + ·) 0

/-- Global numbers of the elements of this process in a block, after a number
of elements in earlier blocks. -/
def elementNumbers (mesh : Mesh R) (preceding : Nat) (block : Block) : List Nat :=
  List.range' (preceding + mesh.lowerElementsOf block + 1) (mesh.ownElementsOf block)

/-- Global numbers in a list of blocks, after a number of elements in earlier blocks. -/
def elementMapFrom (mesh : Mesh R) (preceding : Nat) : List Block → List Nat
  | [] => []
  | block :: rest =>
    mesh.elementNumbers preceding block ++
      mesh.elementMapFrom (preceding + mesh.elementsOf block) rest

/-- Global numbers of all elements of this process, in block order. -/
def elementMap (mesh : Mesh R) : List Nat := mesh.elementMapFrom 0 mesh.blocks

/-- Global numbers of the nodes of this process, by their local places. -/
def nodeMap (mesh : Mesh R) : List Nat :=
  List.range' (mesh.slab.start * mesh.layerNodes + 1) mesh.ownNodeCount

/-- One layer of nodes, each with the process that shares it. -/
def sharedLayer (mesh : Mesh R) (layer process : Nat) : List (Nat × Nat) :=
  (List.range' (layer * mesh.layerNodes + 1) mesh.layerNodes).map fun node => (node, process)

/-- The nodes that other processes have too: the first layer of the slab is
shared with the process below, the last layer with the process above. -/
def sharedNodes (mesh : Mesh R) : List (Nat × Nat) :=
  let rank := mesh.layout.rank
  (if mesh.layout.isFirst then [] else mesh.sharedLayer mesh.slab.start (rank - 1)) ++
    if mesh.layout.isLast then []
    else mesh.sharedLayer (mesh.slab.start + mesh.slab.count) (rank + 1)

end Mesh

end HexSlab

import HexSlab.Mesh.Surface
import HexSlab.Numeral.Word

/-!
# What a process answers in machine words

Counts and numbers are computed in machine words. An answer is the exact number, or the
exact list of numbers, if words hold it and what is computed on the way; otherwise there
is none. A product of positive factors is at least each of its parts, so the parts are
not looked at; but a slab may be empty, so a product with its layers is looked at beside
the product before it.
-/

namespace HexSlab.Mesh

variable {R : Type}

/-- The number of nodes of the whole mesh. -/
def nodeCount? (mesh : Mesh R) : Option Nat := Word.of? mesh.nodeCount

/-- The number of nodes of this process. -/
def ownNodeCount? (mesh : Mesh R) : Option Nat := Word.of? mesh.ownNodeCount

/-- What is computed for a number of elements of a block: the hexahedra of one layer are
counted first. -/
def countSteps (mesh : Mesh R) (count : Nat) : Block → List Nat
  | .hexahedra => [mesh.numX * mesh.numY, count]
  | .shells _ => [count]

/-- What is computed for the elements of a block in the whole mesh. -/
def blockSteps (mesh : Mesh R) (block : Block) : List Nat :=
  mesh.countSteps (mesh.elementsOf block) block

/-- What is computed for the elements of a block on this process. -/
def ownBlockSteps (mesh : Mesh R) (block : Block) : List Nat :=
  mesh.countSteps (mesh.ownElementsOf block) block

/-- The number of elements of a block in the whole mesh. -/
def elementsOf? (mesh : Mesh R) (block : Block) : Option Nat :=
  if Word.Hold (mesh.blockSteps block) then some (mesh.elementsOf block) else none

/-- The number of elements of a block on this process. -/
def ownElementsOf? (mesh : Mesh R) (block : Block) : Option Nat :=
  if Word.Hold (mesh.ownBlockSteps block) then some (mesh.ownElementsOf block) else none

/-- What is computed for the elements of the whole mesh in a number of blocks. -/
def precedingSteps (mesh : Mesh R) (count : Nat) : List Nat :=
  (mesh.blocks.take count).flatMap mesh.blockSteps ++ [mesh.elementsBefore count]

/-- What is computed for all elements of this process. -/
def ownSteps (mesh : Mesh R) : List Nat :=
  mesh.blocks.flatMap mesh.ownBlockSteps ++ [mesh.ownElementCount]

/-- The number of elements of the whole mesh. -/
def elementCount? (mesh : Mesh R) : Option Nat :=
  if Word.Hold (mesh.precedingSteps mesh.blockCount) then some mesh.elementCount else none

/-- The number of elements of this process. -/
def ownElementCount? (mesh : Mesh R) : Option Nat :=
  if Word.Hold mesh.ownSteps then some mesh.ownElementCount else none

/-- What is computed for the numbers of the elements of this process in a block, after a
number of earlier blocks. The largest is where the numbers end. -/
def numberSteps (mesh : Mesh R) (earlier : Nat) (block : Block) : List Nat :=
  mesh.ownBlockSteps block ++ mesh.precedingSteps earlier ++
    [mesh.elementsBefore earlier + mesh.lowerElementsOf block + 1 + mesh.ownElementsOf block]

/-- Global numbers of the elements of this process in the block with a number. -/
def blockElementMap? (mesh : Mesh R) (number : Nat) :
    Except BlockOutOfRange (Option (List Nat)) :=
  (mesh.block number).map fun block =>
    if Word.Hold (mesh.numberSteps (number - 1) block) then
      some (mesh.elementNumbers (mesh.elementsBefore (number - 1)) block)
    else none

/-- Global numbers of all elements of this process, in block order. -/
def elementMap? (mesh : Mesh R) : Option (List Nat) :=
  if Word.Hold mesh.ownSteps ∧
      ∀ place ∈ mesh.blocks.zipIdx, Word.Hold (mesh.numberSteps place.2 place.1) then
    some mesh.elementMap
  else none

/-- Global numbers of the nodes of this process, by their local places. -/
def nodeMap? (mesh : Mesh R) : Option (List Nat) :=
  if Word.Hold [mesh.slab.start * mesh.layerNodes + mesh.ownNodeCount] then some mesh.nodeMap
  else none

/-- Where the numbers of a layer of nodes end. -/
def layerEnd (mesh : Mesh R) (layer : Nat) : Nat :=
  layer * mesh.layerNodes + 1 + mesh.layerNodes

/-- What is computed for the nodes that other processes have too. -/
def sharedSteps (mesh : Mesh R) : List Nat :=
  mesh.layerNodes ::
    (if mesh.layout.isFirst then [] else [mesh.layerEnd mesh.slab.start]) ++
    if mesh.layout.isLast then [] else [mesh.layerEnd (mesh.slab.start + mesh.slab.count)]

/-- The nodes that other processes have too. -/
def sharedNodes? (mesh : Mesh R) : Option (List (Nat × Nat)) :=
  if Word.Hold mesh.sharedSteps then some mesh.sharedNodes else none

/-- What is computed for the nodes of the elements in a block, before any of them: the
nodes of a layer, and the length of the answer. -/
def connectivitySteps (mesh : Mesh R) (block : Block) : List Nat :=
  mesh.layerNodes :: mesh.ownBlockSteps block ++
    [mesh.ownElementsOf block * block.shape.nodeCount]

/-- The nodes of all elements of this process in the block with a number, one element
after the other. -/
def connectivity? (mesh : Mesh R) (number : Nat) :
    Except BlockOutOfRange (Option (List Nat)) :=
  (mesh.block number).map fun block =>
    if Word.Hold (mesh.connectivitySteps block) then Word.all? (mesh.elements block).flatten
    else none

/-- For each shell of this process on a face, the global number of the hexahedron under
it and the face of that hexahedron. -/
def surfaceMap? (mesh : Mesh R) (face : Face) : Option (List (Nat × Nat)) :=
  if Word.Hold [mesh.numX * mesh.numY, mesh.slab.start + mesh.slab.count] then
    let entries := mesh.surfaceMap face
    if Word.Hold (entries.map (·.1)) then some entries else none
  else none

end HexSlab.Mesh

import HexSlab.Attempt
import HexSlab.Mesh.Error
import HexSlab.Mesh.Face
import HexSlab.Mesh.Geometry
import HexSlab.Mesh.Slab
import HexSlab.Numeral.Word
import HexSlab.Text.Blank

/-!
# Configuring a mesh

A mesh is a box of hexahedra, seen from one process. Its configuration is the
same on every process: the intervals along the axes, the faces with shells, and
the placement in space. Only the layout and the slab tell the processes apart.
Setters that can fail are attempts, whose state is the mesh: what they had
replaced before a failure stays replaced. The numbers of intervals are words,
and where their sum exceeds a word the setter ends with an overflow.
-/

namespace HexSlab

/-- A structured mesh of hexahedra as one process sees it. -/
structure Mesh (R : Type) where
  /-- Intervals along X. -/
  numX : Nat
  /-- Intervals along Y. -/
  numY : Nat
  /-- Intervals along Z of the whole mesh. -/
  numZ : Nat
  /-- The intervals along Z of this process. -/
  slab : Slab
  /-- The process that looks at the mesh. -/
  layout : Layout
  /-- Distance of neighbouring nodes along each axis. -/
  scale : Vec3 R
  /-- Place of the first node before any rotation. -/
  offset : Vec3 R
  /-- The product of all rotations, if there were any. -/
  rotation : Option (Mat3 R)
  /-- The faces with a block of shells, in the order of the blocks. -/
  shells : List Face

/-- The axis with a given name, in either case and with blank margins. -/
def Axis.ofText (text : List Char) : Except MeshError Axis :=
  match Text.trim text with
  | ['x'] => .ok .x
  | ['X'] => .ok .x
  | ['y'] => .ok .y
  | ['Y'] => .ok .y
  | ['z'] => .ok .z
  | ['Z'] => .ok .z
  | name => .error (.invalidAxis (String.ofList name))

namespace Mesh

variable {R : Type}

/-- A mesh with the same intervals, shells and placement in a run of one process. -/
def serial (mesh : Mesh R) : Mesh R :=
  { mesh with slab := ⟨0, mesh.numZ⟩, layout := .serial }

section Setters

variable [Scalar R]

/-- Deal out the intervals along Z evenly. -/
def decompose : Attempt (Mesh R) MeshError Unit := do
  let mesh ← .current
  if mesh.numZ < mesh.layout.count then
    .fail (.insufficientIntervals mesh.numZ mesh.layout.count)
  else .update fun mesh => { mesh with slab := .even mesh.numZ mesh.layout }

/-- The mesh with given intervals, evenly split, of unit spacing at the origin. -/
def ofIntervals (numX numY numZ : Nat) (layout : Layout) : Except MeshError (Mesh R) :=
  if numX = 0 ∨ numY = 0 ∨ numZ = 0 then
    .error (.invalidIntervals
      (toString numX ++ "x" ++ toString numY ++ "x" ++ toString numZ))
  else
    decompose.finish
      ⟨numX, numY, numZ, ⟨0, numZ⟩, layout, Vec3.fill 1, Vec3.fill 0, none, []⟩

/-- Add a block of shells on a face. -/
def addShells (mesh : Mesh R) (face : Face) : Mesh R :=
  { mesh with shells := mesh.shells ++ [face] }

/-- Set the distance of neighbouring nodes. -/
def setScale (mesh : Mesh R) (scale : Vec3 R) : Mesh R := { mesh with scale := scale }

/-- Set the place of the first node. -/
def setOffset (mesh : Mesh R) (offset : Vec3 R) : Mesh R := { mesh with offset := offset }

/-- Set scale and offset so that the mesh fills a box, by its present intervals. -/
def setBox (mesh : Mesh R) (low high : Vec3 R) : Mesh R :=
  { mesh with
    scale := (high.sub low).unscale (Vec3.ofCounts mesh.numX mesh.numY mesh.numZ)
    offset := low }

/-- The sum of numbers of intervals, or an overflow. -/
def sumIntervals (counts : List Nat) : Attempt (Mesh R) MeshError Nat :=
  match Word.sum? counts with
  | some sum => pure sum
  | none => .fail .overflow

/-- Set the number of intervals along Z of each process. -/
def setZSplit (counts : List Nat) : Attempt (Mesh R) MeshError Unit := do
  let layout := (← .current).layout
  if counts.length ≠ layout.count then
    .fail (.wrongValueCount "zdecomp" (.perProcess layout.count) counts.length)
  else
    let numZ ← sumIntervals counts
    if numZ < layout.count then .fail (.insufficientIntervals numZ layout.count)
    else
      .update fun mesh => { mesh with numZ := numZ }
      .update fun mesh => { mesh with slab.count := counts.getD layout.rank 0 }
      let start ← sumIntervals (counts.take layout.rank)
      .update fun mesh => { mesh with slab.start := start }

/-- Rotate the mesh about an axis, after all earlier rotations. -/
def rotate [Trigonometry R] (mesh : Mesh R) (axis : Axis) (degrees : R) : Mesh R :=
  { mesh with
    rotation := some ((mesh.rotation.getD Mat3.identity).mul (Mat3.turnDegrees axis degrees)) }

/-- Rotate the mesh about an axis given by its name. -/
def rotateNamed [Trigonometry R] (axis : List Char) (degrees : R) :
    Attempt (Mesh R) MeshError Unit :=
  match Axis.ofText axis with
  | .ok axis => .update fun mesh => mesh.rotate axis degrees
  | .error error => .fail error

end Setters

end Mesh

end HexSlab
